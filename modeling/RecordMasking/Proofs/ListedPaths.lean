import RecordMasking.Proofs.Coverage
import RecordMasking.Proofs.PathText
import RecordMasking.Proofs.ProperName

/-!
# The paths that an artifact lists

The second line of an artifact lists the paths it was made for.  Where types
and fields have names that code is written with, none of the characters that
end a line or separate two paths is part of a path, so the line reads back to
the paths.  An empty line is the exception: it lists no path, and reads as the
empty one.
-/

namespace RecordMasking

open Code

/-! ## Written names -/

/-- A name that code is written with, or a position of 64 bits. -/
def FieldName.IsWritten : FieldName → Prop
  | .named text => isWritableName text = true
  | .position index => index < positionBound

instance (name : FieldName) : Decidable name.IsWritten :=
  match name with
  | .named text => inferInstanceAs (Decidable (isWritableName text = true))
  | .position index => inferInstanceAs (Decidable (index < positionBound))

/-- Types and fields are declared with names that code is written with. -/
structure Schema.IsWritten (schema : Schema) : Prop where
  types : ∀ declaration ∈ schema.declarations, declaration.id.IsProper
  fields : ∀ declaration ∈ schema.declarations,
    ∀ field ∈ declaration.fields, field.name.IsWritten

instance (schema : Schema) : Decidable schema.IsWritten :=
  decidable_of_iff
    ((∀ declaration ∈ schema.declarations, declaration.id.IsProper) ∧
      ∀ declaration ∈ schema.declarations,
        ∀ field ∈ declaration.fields, field.name.IsWritten)
    ⟨fun h => ⟨h.1, h.2⟩, fun h => ⟨h.types, h.fields⟩⟩

theorem startsName_of_isWritableName {name : String}
    (hname : isWritableName name = true) :
    ∃ first rest, name.toList = first :: rest ∧ startsName first = true := by
  unfold isWritableName at hname
  rw [beq_iff_eq] at hname
  unfold Lexer.anyName? at hname
  split at hname
  next =>
    cases htext : name.toList with
    | nil => simp [htext, Lexer.name?] at hname
    | cons first rest =>
        rw [htext, Lexer.name?] at hname
        by_cases hfirst : startsName first = true
        · exact ⟨first, rest, rfl, hfirst⟩
        · simp [hfirst] at hname
  next bare hbare =>
    exact ⟨'r', '#' :: bare, eq_append_of_dropPrefix? hbare, by decide⟩

theorem startsName_eq_false_of_isDigit {c : Char} (hc : c.isDigit = true) :
    startsName c = false := by
  obtain ⟨hsmall, hchar⟩ := digitChar_of_isDigit hc
  have hdigits : ∀ digit < 10, startsName (Nat.digitChar digit) = false := by
    decide
  rw [← hchar]
  exact hdigits _ hsmall

theorem IsNumeral.startsName_eq_false {text : List Char} {value : Nat}
    (htext : IsNumeral text value) {first : Char} {rest : List Char}
    (hfirst : text = first :: rest) : startsName first = false := by
  obtain ⟨sign, zeros, hsign, rfl⟩ := htext
  rcases hsign with rfl | rfl
  · apply startsName_eq_false_of_isDigit
    apply isDigit_of_mem_padded
    rw [← List.nil_append (_ ++ _), hfirst]
    exact List.mem_cons_self
  · obtain ⟨rfl, _⟩ := List.cons.inj hfirst
    decide

theorem FieldName.IsWritten.isPlain {name : FieldName}
    (hname : name.IsWritten) : name.IsPlain := by
  cases name with
  | named text =>
      have hsome : text ≠ "" := ne_empty_of_isWritableName hname
      have hdot : '.' ∉ text.toList :=
        not_mem_of_isWritableName hname (by decide) (by decide)
      refine ⟨hsome, hdot, ?_⟩
      intro value _ hnumeral
      obtain ⟨first, rest, htext, hfirst⟩ := startsName_of_isWritableName hname
      rw [hnumeral.startsName_eq_false htext] at hfirst
      simp at hfirst
  | position index => exact hname

/-! ## The characters of names and paths -/

theorem FieldName.IsWritten.not_mem_display {name : FieldName}
    (hname : name.IsWritten) {c : Char} (hc : continuesName c = false)
    (hmark : c ≠ '#') : c ∉ name.display.toList := by
  cases name with
  | named text => exact not_mem_of_isWritableName hname hc hmark
  | position index =>
      intro hmem
      rw [FieldName.toList_display_position] at hmem
      have hdigit : c.isDigit = true :=
        Nat.isDigit_of_mem_toDigits (by decide) (by decide) hmem
      simp [continuesName, Char.isAlphanum, hdigit] at hc

theorem FieldPath.not_mem_display {path : FieldPath}
    (hpath : ∀ name ∈ path, name.IsWritten) {c : Char}
    (hc : continuesName c = false) (hmark : c ≠ '#') (hdot : c ≠ '.') :
    c ∉ path.display.toList := by
  intro hmem
  rcases mem_intercalate hmem with hseparator | ⟨text, htext, hchar⟩
  · exact hdot (List.mem_singleton.mp hseparator)
  · obtain ⟨name, hname, rfl⟩ := List.mem_map.mp htext
    exact (hpath name hname).not_mem_display hc hmark hchar

theorem QualifiedName.IsProper.not_mem_display {id : QualifiedName}
    (hproper : id.IsProper) {c : Char} (hc : continuesName c = false)
    (hmark : c ≠ '#') (hcolon : c ≠ ':') : c ∉ id.display.toList := by
  have hname : c ∉ id.name.toList :=
    not_mem_of_isWritableName hproper.2 hc hmark
  have hpackage : c ∉ id.package.toList := by
    intro hmem
    obtain ⟨piece, hpiece, hchar⟩ :=
      exists_mem_splitAtPair hmem hcolon hcolon
    rw [← Package.pieces_eq_splitAtPair] at hpiece
    have hsegment : String.ofList piece ∈ id.segments := by
      apply List.mem_map_of_mem
      rw [List.mem_filter]
      exact ⟨hpiece, by simp [List.ne_nil_of_mem hchar]⟩
    have hwritable := hproper.1 _ hsegment
    apply not_mem_of_isWritableName hwritable hc hmark
    rw [String.toList_ofList]
    exact hchar
  unfold display
  split
  next => exact hname
  next =>
    rw [String.toList_append, String.toList_append, List.mem_append,
      List.mem_append, not_or, not_or]
    refine ⟨⟨hpackage, ?_⟩, hname⟩
    simpa using hcolon

/-! ## The names on masked paths -/

namespace Schema

variable {schema : Schema}

theorem IsWritten.of_mem_fields (hwritten : schema.IsWritten)
    {owner : QualifiedName} {field : Field}
    (hfield : field ∈ schema.fields owner) : field.name.IsWritten := by
  have hlookup := isSome_lookup_of_mem_fields hfield
  obtain ⟨declaration, hdeclaration⟩ := Option.isSome_iff_exists.mp hlookup
  rw [fields_of_lookup hdeclaration] at hfield
  exact hwritten.fields declaration
    (schema.lookup_sound hdeclaration).1 field hfield

theorem IsWritten.of_walk (hwritten : schema.IsWritten)
    {root stop : QualifiedName} {steps : List Descent}
    (hwalk : schema.Walk root steps stop) :
    ∀ name ∈ Descent.path steps, name.IsWritten := by
  induction hwalk with
  | here => simp
  | down hfield _ _ _ ih =>
      rw [Descent.path_cons, List.forall_mem_cons]
      exact ⟨hwritten.of_mem_fields hfield, ih⟩

theorem IsWritten.of_mem_paths (hwritten : schema.IsWritten)
    {type : QualifiedName} {onPath : List QualifiedName} {path : FieldPath}
    (hpath : path ∈ (schema.resolveOnPath type onPath).paths.toList) :
    ∀ name ∈ path, name.IsWritten := by
  rw [mem_paths_iff, mem_sightings_iff] at hpath
  obtain ⟨steps, stop, field, seen, hwalk, _, hfield, hsights, heq⟩ := hpath
  cases hsights with
  | masked _ =>
      have hsteps : path = Descent.path steps ++ [field.name] := by
        simpa using heq
      rw [hsteps, List.forall_mem_append, List.forall_mem_singleton]
      exact ⟨hwritten.of_walk hwalk, hwritten.of_mem_fields hfield⟩
  | unknown _ _ => simp at heq
  | cut _ _ => simp at heq

end Schema

/-! ## The line of the listed paths -/

def listingFront : List Char := "// masked: ".toList

/-- The rest of the first line that lists masked paths. -/
def listing? (text : String) : Option (List Char) :=
  (splitAt '\n' text.toList).findSome? (Lexer.dropPrefix? listingFront)

/-- The paths between the separators of a listing. -/
def listedPaths (listing : List Char) : List FieldPath :=
  (splitAtPair ',' ' ' listing).map fun piece =>
    FieldPath.parse (String.ofList piece)

/-- The first line of an artifact. -/
def titleLine (type : QualifiedName) : List Char :=
  "// @generated by masking-codegen from ".toList ++
    (type.display.toList ++ ". Do not edit.".toList)

theorem toList_artifactHeader (type : QualifiedName) (paths : PathSet) :
    (Schema.artifactHeader type paths).toList =
      titleLine type ++ '\n' ::
        (listingFront ++ (", ".intercalate paths.display).toList ++
          ['\n']) := by
  have hmiddle : ". Do not edit.\n// masked: ".toList =
      ". Do not edit.".toList ++ '\n' :: listingFront := rfl
  have hend : "\n".toList = ['\n'] := rfl
  unfold Schema.artifactHeader titleLine
  rw [← Schema.display_eq_map_dottedPath, String.toList_append, String.toList_append, String.toList_append,
    String.toList_append, hmiddle, hend]
  simp only [List.append_assoc, List.cons_append]

/-- The listing is what the header was made with. -/
theorem listing?_artifactHeader {type : QualifiedName} {paths : PathSet}
    (htype : '\n' ∉ type.display.toList)
    (hpaths : '\n' ∉ (", ".intercalate paths.display).toList)
    (code : String) :
    listing? (Schema.artifactHeader type paths ++ code) =
      some (", ".intercalate paths.display).toList := by
  have htitle : '\n' ∉ titleLine type := by
    unfold titleLine
    rw [List.mem_append, List.mem_append, not_or, not_or]
    exact ⟨by decide, htype, by decide⟩
  have hlisting :
      '\n' ∉ listingFront ++ (", ".intercalate paths.display).toList := by
    rw [List.mem_append, not_or]
    exact ⟨by decide, hpaths⟩
  have hother : Lexer.dropPrefix? listingFront (titleLine type) = none := rfl
  unfold listing?
  rw [String.toList_append, toList_artifactHeader, List.append_assoc,
    List.cons_append, splitAt_append_mark htitle, List.append_assoc,
    List.singleton_append, splitAt_append_mark hlisting,
    List.findSome?_cons, hother, List.findSome?_cons,
    Lexer.dropPrefix?_append]

theorem listedPaths_display {paths : PathSet} (hsome : paths.toList ≠ [])
    (hpaths : ∀ path ∈ paths.toList, ∀ name ∈ path, name.IsWritten) :
    listedPaths (", ".intercalate paths.display).toList = paths.toList := by
  unfold PathSet.display listedPaths
  cases hlist : paths.toList with
  | nil => exact absurd hlist hsome
  | cons first rest =>
      rw [hlist] at hpaths
      have hcommas : ∀ text ∈ (first :: rest).map FieldPath.display,
          ',' ∉ text.toList := by
        intro text htext
        obtain ⟨path, hpath, rfl⟩ := List.mem_map.mp htext
        exact FieldPath.not_mem_display (hpaths path hpath) (by decide)
          (by decide) (by decide)
      have hread : ∀ path ∈ first :: rest,
          FieldPath.parse path.display = path := by
        intro path hpath
        apply FieldPath.parse_display
        exact fun name hname => (hpaths path hpath name hname).isPlain
      have hpieces : splitAtPair ',' ' '
          (", ".intercalate ((first :: rest).map FieldPath.display)).toList =
            ((first :: rest).map FieldPath.display).map String.toList :=
        splitAtPair_intercalate rfl hcommas
      rw [hpieces, List.map_map, List.map_map]
      simp only [Function.comp_def, String.ofList_toList]
      exact (List.map_congr_left hread).trans (List.map_id _)

/-- Reading inverts displaying, both ways: a path that was read reads back,
and so does every path of plain names and no other one.  The line of an
artifact that lists the paths it was made for reads back to them in order,
where there are any; where there are none, nothing is listed. -/
theorem displayed_paths_read_back :
    (∀ text, FieldPath.parse (FieldPath.display (FieldPath.parse text)) =
      FieldPath.parse text) ∧
    (∀ path : FieldPath, FieldPath.parse path.display = path ↔
      ∀ name ∈ path, name.IsPlain) ∧
    ∀ (schema : Schema) (config : Config) (declaration : Declaration)
      (onPath : List QualifiedName) (paths : PathSet) (synthesis : Synthesis),
      schema.IsWritten → declaration ∈ schema.declarations →
      paths = (schema.resolveOnPath declaration.id onPath).paths →
      schema.synthesize config declaration paths = .ok synthesis →
      ∃ listing, listing? synthesis.artifact.text = some listing ∧
        (paths.toList ≠ [] → listedPaths listing = paths.toList) ∧
        (paths.toList = [] → listing = []) := by
  refine ⟨FieldPath.parse_display_parse,
    fun _ => FieldPath.parse_display_iff, ?_⟩
  intro schema config declaration onPath paths synthesis hwritten hmem hpaths
    hsynthesis
  subst hpaths
  have hnames : ∀ path ∈
      (schema.resolveOnPath declaration.id onPath).paths.toList,
      ∀ name ∈ path, name.IsWritten :=
    fun path hpath => hwritten.of_mem_paths hpath
  have htype : '\n' ∉ declaration.id.display.toList :=
    (hwritten.types declaration hmem).not_mem_display (by decide) (by decide)
      (by decide)
  have hline : '\n' ∉ (", ".intercalate
      (schema.resolveOnPath declaration.id onPath).paths.display).toList := by
    intro hbreak
    rcases mem_intercalate hbreak with hseparator | ⟨text, htext, hchar⟩
    · exact absurd hseparator (by decide)
    · obtain ⟨path, hpath, rfl⟩ := List.mem_map.mp htext
      exact FieldPath.not_mem_display (hnames path hpath) (by decide)
        (by decide) (by decide) hchar
  obtain ⟨_, code, htext⟩ := Schema.synthesize_header hsynthesis
  refine ⟨_, ?_, fun hsome => listedPaths_display hsome hnames, ?_⟩
  · rw [htext]
    exact listing?_artifactHeader htype hline code
  · intro hnone
    unfold PathSet.display
    rw [hnone]
    rfl

theorem samples_isWritten : Samples.schema.IsWritten := by
  decide +kernel

open Samples in
theorem invoice_listing_reads_back :
    Samples.schema.IsWritten ∧
      ∃ synthesis, Samples.schema.synthesize {} invoice
          (Samples.schema.resolve invoice.id).paths = .ok synthesis ∧
        (listing? synthesis.artifact.text).map listedPaths =
          some [[.named "card"], [.named "customer", .named "value"]] := by
  have hmem : invoice ∈ Samples.schema.declarations := by decide +kernel
  have hpaths : (Samples.schema.resolve invoice.id).paths.toList =
      [[.named "card"], [.named "customer", .named "value"]] := by
    decide +kernel
  have hsome : (Samples.schema.resolve invoice.id).paths.toList ≠ [] := by
    rw [hpaths]
    exact List.cons_ne_nil _ _
  have hfound : (Samples.schema.synthesize {} invoice
      (Samples.schema.resolve invoice.id).paths).toOption.isSome = true := by
    decide +kernel
  obtain ⟨synthesis, hsynthesis⟩ := exists_eq_ok hfound
  obtain ⟨listing, hlisting, hread, _⟩ :=
    displayed_paths_read_back.2.2 Samples.schema {} invoice [invoice.id] _
      synthesis samples_isWritten hmem rfl hsynthesis
  refine ⟨samples_isWritten, synthesis, hsynthesis, ?_⟩
  rw [hlisting, Option.map_some, hread hsome]
  exact congrArg some hpaths

open Samples in
/-- A model without masked paths has an artifact all the same, and its line
reads as one path, the empty one. -/
theorem unmasked_listing_reads_as_empty_path :
    Samples.schema.IsWritten ∧
      ∃ unmasked ∈ Samples.schema.declarations,
        (Samples.schema.resolve unmasked.id).paths.toList = [] ∧
        ∃ synthesis, Samples.schema.synthesize {} unmasked
            (Samples.schema.resolve unmasked.id).paths = .ok synthesis ∧
          (listing? synthesis.artifact.text).map listedPaths = some [[]] := by
  let unmasked := model "NoMaskedProperty" [plain "value" text]
  have hmem : unmasked ∈ Samples.schema.declarations := by decide +kernel
  have hpaths : (Samples.schema.resolve unmasked.id).paths = .empty := by
    decide +kernel
  have hbreak : '\n' ∉ unmasked.id.display.toList := by decide +kernel
  have hfound : (Samples.schema.synthesize {} unmasked
      .empty).toOption.isSome = true := by
    decide +kernel
  obtain ⟨synthesis, hsynthesis⟩ := exists_eq_ok hfound
  obtain ⟨_, code, htext⟩ := Schema.synthesize_header hsynthesis
  have hlisting : listing? synthesis.artifact.text = some [] := by
    rw [htext]
    exact listing?_artifactHeader hbreak (by decide) code
  rw [← hpaths] at hsynthesis
  have hnone : (Samples.schema.resolve unmasked.id).paths.toList = [] := by
    rw [hpaths]
    rfl
  refine ⟨samples_isWritten, unmasked, hmem, hnone, synthesis, hsynthesis, ?_⟩
  rw [hlisting]
  rfl

end RecordMasking
