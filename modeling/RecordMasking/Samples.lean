import RecordMasking.Generator
import RecordMasking.Masking

/-!
# Sample models

A package of models that shows every decision: cleared fields at several
depths, records that are rebuilt, models that are handed over, a tuple, a
record reached through a synonym, a lifetime, and models in modules of their
own.
-/

namespace RecordMasking.Samples

def modelsPackage : Package := "models"

def named (name : String) : QualifiedName := ⟨modelsPackage, name⟩

/-! ## Fields and declarations -/

def text : FieldType := .builtin "String"

def plain (name : String) (type : FieldType) : Field where
  name := .named name
  type := type

def secret (name : String) (type : FieldType) : Field where
  name := .named name
  type := type
  sensitive := true

/-- A field that holds a record of the package. -/
def nested (name : String) (type : String) : Field :=
  plain name (.declared (named type))

def model (name : String) (fields : List Field) : Declaration where
  id := named name
  fields := fields
  supertypes := ["Model"]

def recordOf (name : String) (fields : List Field) : Declaration where
  id := named name
  fields := fields

def invoice : Declaration where
  id := ⟨modelsPackage.child "billing", "Invoice"⟩
  fields :=
    [plain "number" text, secret "card" text, nested "customer" "Inner"]
  supertypes := ["Model"]

def ticket : Declaration where
  id := ⟨modelsPackage.child "support", "Ticket"⟩
  fields := [plain "subject" text, nested "card" "C1"]
  supertypes := ["Model"]

def token : Declaration where
  id := named "Token"
  fields :=
    [{ name := .position 0, type := text, sensitive := true },
      { name := .position 1, type := .builtin "u64" }]
  supertypes := ["Model"]

def view : Declaration where
  id := named "View"
  fields := [secret "label" (.builtin "& 'a str"), plain "owner" text]
  supertypes := ["Model"]
  lifetimes := ["'a"]

def a1 : Declaration :=
  model "A1" [secret "a1" text, nested "b1" "B1", nested "d1" "D1"]

def declarations : List Declaration :=
  [model "Inner" [secret "value" text],
    a1,
    recordOf "B1" [plain "b1" text, nested "c1" "C1"],
    recordOf "C1" [secret "c1" text],
    recordOf "D1" [plain "d1" text],
    model "NoMaskedProperty" [plain "value" text],
    model "A2" [plain "value" text, nested "b" "B2"],
    recordOf "B2" [secret "value" text],
    model "Deep" [plain "name" text, nested "level" "Level1"],
    recordOf "Level1" [plain "tag" (.builtin "u8"), nested "next" "Level2"],
    recordOf "Level2" [plain "label" text, nested "next" "Level3"],
    recordOf "Level3"
      [secret "secret" (.builtin "u64"), plain "visible" (.builtin "u64")],
    model "Outer" [plain "label" text, nested "inner" "Inner"],
    model "Holder" [{ nested "inner" "Inner" with sensitive := true }],
    model "Account"
      [secret "pin" (.builtin "u32"),
        secret "recovery_codes" (.builtin "Vec < String >"),
        plain "owner" text,
        plain "nickname" (.builtin "Option < String >")],
    token,
    model "Ledger" [secret "iban" text, plain "bank" text],
    model "Purse" [plain "owner" text, nested "wallet" "B2"],
    view, invoice, ticket]

def schema : Schema :=
  Schema.ofList declarations "Model" true

/-- A model and a record that hold each other, so that no value of either is
finite. -/
def circle : Schema :=
  Schema.ofList
    [model "Node" [secret "label" text, nested "link" "Link"],
      recordOf "Link"
        [nested "back" "Node", plain "data" (.unresolved "Blob")]]
    "Model" true

/-- A model with nothing to mask, a part of unknown type, and a version of
itself. -/
def drafts : Schema :=
  Schema.ofList
    [model "Draft" [plain "body" (.unresolved "Blob"), nested "last" "Draft"]]
    "Model" true

def draftsRun : RunState × Ending :=
  drafts.run {} { root := ["out"] } .empty

def customer : Declaration :=
  model "Customer" [plain "name" text, nested "wallet" "Wallet"]

/-- A customer with a card in its wallet; the number of the card is only seen
in the vault that declares it. -/
def vaults : Schema :=
  Schema.ofList
    [customer,
      recordOf "Wallet"
        [plain "label" text, plain "card" (.declared ⟨"models::vault", "Card"⟩)],
      { id := ⟨"models::vault", "Card"⟩
        fields :=
          [plain "brand" text,
            { secret "number" text with visibleIn := "models::vault" }] }]
    "Model" true

/-- An invoice that is declared before the model of its customer. -/
def billing : Schema :=
  Schema.ofList [invoice, model "Inner" [secret "value" text]] "Model" true

def billingRun : RunState × Ending :=
  billing.run {} { root := ["out"] } .empty

/-- Output in which a file stands where the invoice's directory should be. -/
def obstructed : OutputTree :=
  ⟨[(["out"], .directory), (["out", "models"], .directory),
    (["out", "models", "billing"], .file "")]⟩

/-! ## Values -/

inductive Leaf where
  | text (content : String)
  | number (value : Nat)
  | texts (contents : List String)
  | absent
deriving DecidableEq, Repr, Inhabited

/-- The default of a builtin type. -/
def Leaf.ofType (type : String) : Leaf :=
  if type = "Vec < String >" then .texts []
  else if type = "Option < String >" then .absent
  else if ["u8", "u32", "u64"].contains type then .number 0
  else .text ""

/-- The default of a type whose records are nested less deep than the given
depth. -/
def defaultValue : Nat → FieldType → Value Leaf
  | depth + 1, .declared id =>
      .record id ((schema.fields id).map fun field =>
        (field.name, defaultValue depth field.type))
  | _, type => .leaf (Leaf.ofType type.display)

/-- The masks of the sample models by their tables. -/
def masks : MaskSystem Leaf :=
  schema.maskSystem (defaultValue declarations.length)

/-- A record of the sample model whose nested records use their names
again. -/
def a1Value (first last : String) : Value Leaf :=
  .record a1.id
    [(.named "a1", .leaf (.text first)),
      (.named "b1", .record (named "B1")
        [(.named "b1", .leaf (.text "kept")),
          (.named "c1", .record (named "C1")
            [(.named "c1", .leaf (.text last))])]),
      (.named "d1", .record (named "D1")
        [(.named "d1", .leaf (.text "kept"))])]

/-- An invoice with the given card and the given name of the customer. -/
def invoiceValue (card customer : String) : Value Leaf :=
  .record invoice.id
    [(.named "number", .leaf (.text "17")),
      (.named "card", .leaf (.text card)),
      (.named "customer",
        .record (named "Inner") [(.named "value", .leaf (.text customer))])]

/-- The sample model of a name, in whatever module it is. -/
def find? (name : String) : Option Declaration :=
  declarations.find? fun declaration => declaration.id.name == name

/-- The manifest of a run over the sample models. -/
def manifest : Manifest :=
  (schema.run {} { root := ["masking"] } .empty).1.emission.manifest

end RecordMasking.Samples
