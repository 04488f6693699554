import RecordMasking.Source.SourceSchema

/-!
# Sample sources

A card that is declared twice with its fields in two orders, an invoice whose
module is written out in the source of its customer or in a source of its own,
a job whose fields are typed by records of its own package, some of them named
like types that are builtin, an order whose fields are typed by a card that
is imported in two ways, an account whose fields are typed by synonyms,
ladders of synonyms, a purchase in a shop that opens another module, and two
cards of one name, only one of which is a model.
-/

namespace RecordMasking.Source.SampleSources

open Code

/-- A field at the given line whose type is a path. -/
def fieldAt (line : Nat) (name : String) (path : List String)
    (attributes : List Attribute) : FieldItem where
  attributes := attributes
  visibility := .everywhere
  name := some name
  start := ⟨line, 8⟩
  type := .path false (path.map fun segment => .mk segment .none)

def sensitiveAt (line : Nat) : Attribute :=
  ⟨⟨line, 4⟩, false, ["sensitive"], .bare⟩

def recordAt (line : Nat) (name : String) (fields : List FieldItem) : Item :=
  .record
    { attributes := [], name := name, start := ⟨line, 11⟩, generics := {}
      fields := .named fields }

def modelOf (name : String) : Item :=
  .implementation [.mk "Model" .none] (.path false [.mk name .none])

/-! ## Two variants of a card -/

def cardCrate : Crate :=
  .ofSources
    [⟨"models", "src/models.rs",
      [recordAt 2 "Card"
          [fieldAt 3 "number" ["String"] [sensitiveAt 3],
            fieldAt 4 "brand" ["String"] []],
        recordAt 7 "Card"
          [fieldAt 8 "brand" ["String"] [],
            fieldAt 9 "number" ["String"] [sensitiveAt 9]],
        modelOf "Card"]⟩]

def cards : Schema :=
  schemaOf {} cardCrate

/-- The variant that is declared first. -/
def firstCard : Declaration :=
  cards.declarations.headD default

/-! ## An invoice and its customer -/

/-- The items of the invoice's module, from the given line on. -/
def billingItems (line : Nat) : List Item :=
  [recordAt line "Invoice"
      [fieldAt (line + 1) "customer" ["super", "Customer"] []],
    modelOf "Invoice"]

def customerItem : Item :=
  recordAt 7 "Customer" [fieldAt 8 "name" ["String"] [sensitiveAt 8]]

def oneSource : List MountedSource :=
  [⟨"", "src/lib.rs", [.mounted "billing" (billingItems 2), customerItem]⟩]

/-- The invoice is in a source of its own, which comes before the one that
declares its customer. -/
def twoSources : List MountedSource :=
  [⟨"billing", "src/billing.rs", billingItems 1⟩,
    ⟨"", "src/lib.rs", [customerItem]⟩]

/-! ## A job and the records of its package -/

def job : RecordItem where
  attributes := []
  name := "Job"
  start := ⟨1, 11⟩
  generics := {}
  fields := .named
    [fieldAt 2 "elapsed" ["Duration"] [], fieldAt 3 "initial" ["char"] [],
      fieldAt 4 "card" ["core", "Card"] [], fieldAt 5 "note" ["Note"] [],
      fieldAt 6 "receipt" ["archive", "Receipt"] []]

/-- A record with one sensitive text. -/
def secretAt (line : Nat) (name : String) : Item :=
  recordAt line name
    [fieldAt (line + 1) "text" ["String"] [sensitiveAt (line + 1)]]

def jobCrate : Crate :=
  .ofSources
    [⟨"models", "src/models.rs",
      [.record job, secretAt 9 "Duration", secretAt 12 "char",
        secretAt 15 "Note", .mounted "core" [secretAt 19 "Card"],
        .mounted "archive" [secretAt 24 "Receipt"]]⟩]

/-! ## An order and what it imports -/

def order : RecordItem where
  attributes := []
  name := "Order"
  start := ⟨5, 11⟩
  generics := {}
  fields := .named
    [fieldAt 6 "card" ["Card"] [], fieldAt 7 "direct" ["vault", "Card"] [],
      fieldAt 8 "payment" ["PaymentCard"] [],
      fieldAt 9 "absolute" ["crate", "models", "vault", "Card"] []]

/-- The order imports a card by its full path, and once more through a module
that is imported itself. -/
def orderCrate : Crate :=
  .ofSources
    [⟨"models", "src/models.rs", [.mounted "vault" [secretAt 2 "Card"]]⟩,
      ⟨"shop", "src/shop.rs",
        [.imports (.under "crate" (.under "models" (.leaf "vault"))),
          .imports (.under "vault" (.leaf "Card")),
          .imports (.under "crate" (.under "models" (.under "vault"
            (.renamed "Card" "PaymentCard")))),
          .record order]⟩]

/-! ## An account and its synonyms -/

/-- A synonym for a path. -/
def synonymOf (name : String) (path : List String) : Item :=
  .synonym name {} (.path false (path.map fun segment => .mk segment .none))

def account : RecordItem where
  attributes := []
  name := "Account"
  start := ⟨9, 11⟩
  generics := {}
  fields := .named
    [fieldAt 10 "wallet" ["Wallet"] [], fieldAt 11 "stamp" ["Stamp"] [],
      fieldAt 12 "amount" ["Amount"] [], fieldAt 13 "mystery" ["Mystery"] [],
      fieldAt 14 "spin" ["Loop"] []]

/-- The wallet leads to a record in two hops, the stamp leads out of the
crate, the amount to a builtin shape and the mystery nowhere; the last two
synonyms are a loop. -/
def accountCrate : Crate :=
  .ofSources
    [⟨"models", "src/models.rs",
      [.record account, .imports (.under "chrono" (.leaf "DateTime")),
        synonymOf "Wallet" ["vault", "Card"], synonymOf "Stamp" ["DateTime"],
        synonymOf "Amount" ["u64"], synonymOf "Mystery" ["Unknown"],
        synonymOf "Loop" ["Again"], synonymOf "Again" ["Loop"],
        .mounted "vault" [synonymOf "Card" ["Inner"], secretAt 18 "Inner"]]⟩]

/-! ## Ladders -/

def rungName (rung : Nat) : String :=
  "Rung" ++ toString rung

/-- A record with a field that is typed by the topmost rung. -/
def climber (rungs : Nat) : RecordItem where
  attributes := []
  name := "Climber"
  start := ⟨1, 11⟩
  generics := {}
  fields := .named [fieldAt 2 "rung" [rungName rungs] []]

/-- The lowest rung is a record, and every other one a synonym for the rung
below it. -/
def ladder (rungs : Nat) : Crate :=
  .ofSources
    [⟨"", "src/lib.rs",
      .record (climber rungs) :: secretAt 4 (rungName 0) ::
        (List.range rungs).map fun rung =>
          synonymOf (rungName (rung + 1)) [rungName rung]⟩]

/-! ## A purchase and the module that its shop opens -/

def purchase : RecordItem where
  attributes := []
  name := "Purchase"
  start := ⟨1, 11⟩
  generics := {}
  fields := .named
    [fieldAt 2 "note" ["Note"] [], fieldAt 3 "receipt" ["Receipt"] [],
      fieldAt 4 "slip" ["crate", "desk", "Slip"] [],
      fieldAt 5 "card" ["vault", "Card"] []]

def shopItems : List Item :=
  [.record purchase, secretAt 7 "Note", synonymOf "Paper" ["Receipt"]]

/-- A note is declared by the shop and by the models.  The slip of the desk
is a synonym that leads through the shop. -/
def shopSources (items : List Item) : List MountedSource :=
  [⟨"desk", "src/desk.rs", [synonymOf "Slip" ["crate", "shop", "Paper"]]⟩,
    ⟨"models", "src/models.rs",
      [secretAt 1 "Note", secretAt 4 "Receipt",
        .mounted "vault" [secretAt 8 "Card"]]⟩,
    ⟨"shop", "src/shop.rs", items⟩]

/-- The import that opens the models. -/
def openModels : ImportTree :=
  .under "crate" (.under "models" .glob)

def closedShop : Crate :=
  .ofSources (shopSources shopItems)

def openShop : Crate :=
  .ofSources (shopSources (shopItems ++ [.imports openModels]))

/-! ## Two cards of one name -/

def plainCard : RecordItem where
  attributes := []
  name := "Card"
  start := ⟨1, 11⟩
  generics := {}
  fields := .named [fieldAt 2 "number" ["String"] [sensitiveAt 2]]

def plainNote : RecordItem where
  attributes := []
  name := "Note"
  start := ⟨5, 11⟩
  generics := {}
  fields := .named [fieldAt 6 "text" ["String"] [sensitiveAt 6]]

def vaultCard : TypeExpr :=
  .path false [.mk "vault" .none, .mk "Card" .none]

/-- The implementation for the card of the vault stands beside the other
card. -/
def twoCards : Crate :=
  .ofSources
    [⟨"models", "src/models.rs",
      [.record plainCard, .record plainNote,
        .mounted "vault"
          [recordAt 10 "Card" [fieldAt 11 "brand" ["String"] []]],
        .implementation [.mk "Model" .none] vaultCard, modelOf "Note"]⟩]

end RecordMasking.Source.SampleSources
