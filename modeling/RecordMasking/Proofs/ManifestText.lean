import RecordMasking.Manifest
import RecordMasking.Proofs.WrittenRecord

/-!
# Manifests read back

An entry is written as a record whose members are strings, one a line, and a
manifest as a record with one member, the array of its entries.  Both are read
back as they were, whatever characters the strings are made of, so that no two
manifests have the same text.
-/

namespace RecordMasking

open Json JsonReader

/-! ## Outcomes -/

theorem Outcome.ofName_display (outcome : Outcome) (input : List Char) :
    Outcome.ofName outcome.display input = .ok (outcome, input) := by
  cases outcome <;> rfl

theorem Outcome.reads_read (outcome : Outcome) {blanks : List Char}
    (hblanks : AreBlank blanks) :
    Reads Outcome.read (blanks ++ (writeText outcome.display).toList)
      outcome := by
  intro rest
  have hnone : AreBlank [] := List.forall_mem_nil _
  have htext :=
    reads_textAs "variant identifier" outcome.display hnone rest
  rw [List.nil_append] at htext
  have hquote : (writeText outcome.display).toList ++ rest =
      '"' :: (outcome.display.toList.flatMap writeChar ++ ['"'] ++ rest) := by
    rw [toList_writeText]
    rfl
  rw [List.append_assoc, hquote, Outcome.read,
    bind_of_eq (next_eq hblanks (by decide) _), ← hquote]
  apply (bind_of_eq htext).trans
  exact outcome.ofName_display rest

/-! ## Entries -/

namespace ManifestEntry

def textMember (name value : String) : WrittenMember Part where
  name := name
  text := ' ' :: (writeText value).toList
  value := .text value

def outcomeMember (outcome : Outcome) : WrittenMember Part where
  name := "outcome"
  text := ' ' :: (writeText outcome.display).toList
  value := .outcome outcome

def members (entry : ManifestEntry) : List (WrittenMember Part) :=
  [textMember "package" entry.package, textMember "type_name" entry.typeName,
    textMember "artifact" entry.artifact, textMember "file" entry.file,
    outcomeMember entry.outcome]

/-- An entry from its opening to its closing brace. -/
def written (entry : ManifestEntry) : Written ManifestEntry where
  text := '\x7b' :: (separated ('\n' :: "      ".toList) true
    (entry.members.map WrittenMember.line) ++ ('\n' :: "    ".toList ++
      ['\x7d']))
  value := entry

def memberLine (member : String × String) : String :=
  "      " ++ writeText member.1 ++ ": " ++ writeText member.2

theorem toList_toJson (entry : ManifestEntry) :
    entry.toJson.toList = "    ".toList ++ entry.written.text := by
  have hline : ∀ member : String × String, (memberLine member).toList =
      "      ".toList ++ ((writeText member.1).toList ++
        ':' :: ' ' :: (writeText member.2).toList) := by
    intro member
    simp [memberLine]
  have hlines : '\n' ::
        (",\n".intercalate
          ((memberNames.zip entry.values).map memberLine)).toList =
      separated ('\n' :: "      ".toList) true
        (entry.members.map WrittenMember.line) :=
    toList_lines hline _ _
  unfold toJson written
  rw [← hlines]
  unfold memberLine
  simp

theorem reads_textMember {name : String} (hname : name ≠ "outcome")
    (value : String) :
    Reads (shape.value name) (textMember name value).text (.text value) := by
  intro rest
  have hblank : AreBlank [' '] := by decide
  have hread := reads_textAs "a string" value hblank rest
  unfold shape
  dsimp only
  rw [if_neg hname]
  exact bind_of_eq hread

theorem reads_outcomeMember (outcome : Outcome) :
    Reads (shape.value "outcome") (outcomeMember outcome).text
      (.outcome outcome) := by
  intro rest
  have hblank : AreBlank [' '] := by decide
  have hread := outcome.reads_read hblank rest
  exact bind_of_eq hread

theorem readsMembers_members (entry : ManifestEntry) :
    ReadsMembers shape entry.members where
  known := by
    intro member hmember
    have hname := List.mem_map_of_mem (f := WrittenMember.name) hmember
    exact List.contains_iff_mem.mpr hname
  reads := by
    have htexts : ∀ name ∈ ["package", "type_name", "artifact", "file"],
        name ≠ "outcome" := by
      decide
    simp only [List.forall_mem_cons] at htexts
    obtain ⟨hpackage, htype, hartifact, hfile, _⟩ := htexts
    simp only [members, List.forall_mem_cons]
    exact ⟨reads_textMember hpackage _, reads_textMember htype _,
      reads_textMember hartifact _, reads_textMember hfile _,
      reads_outcomeMember _, List.forall_mem_nil _⟩
  nodup := by
    show memberNames.Nodup
    decide

theorem reads_read (entry : ManifestEntry) :
    Reads ManifestEntry.read entry.written.text entry := by
  intro rest
  have hnone : AreBlank [] := List.forall_mem_nil _
  have hlead : AreBlank ('\n' :: "      ".toList) := by decide
  have hending : AreBlank ('\n' :: "    ".toList) := by decide
  have hrecord := reads_record entry.readsMembers_members
    (List.Subset.refl memberNames) hnone hlead (by simp) hending rest
  apply (bind_of_eq hrecord).trans
  rfl

end ManifestEntry

/-! ## Manifests -/

namespace Manifest

def artifactsMember (manifest : Manifest) :
    WrittenMember (List ManifestEntry) where
  name := "artifacts"
  text :=
    if manifest.artifacts.isEmpty then " []".toList
    else
      ' ' :: '[' :: (separated ('\n' :: "    ".toList) true
        (manifest.artifacts.map fun entry => entry.written.text) ++
          ('\n' :: "  ".toList ++ [']']))
  value := manifest.artifacts

theorem toList_toJson (manifest : Manifest) :
    manifest.toJson.toList =
      '\x7b' :: (separated ('\n' :: "  ".toList) true
        [manifest.artifactsMember.line] ++ (['\n'] ++ ['\x7d'])) := by
  have hname : (writeText "artifacts").toList = "\"artifacts\"".toList := by
    decide
  unfold toJson artifactsMember WrittenMember.line
  rw [hname]
  cases manifest.artifacts with
  | nil => simp [separated]
  | cons entry others =>
      have hlines := toList_lines ManifestEntry.toList_toJson entry others
      rw [if_neg (by simp), if_neg (by simp), ← hlines]
      simp [separated]

theorem reads_artifactsMember (manifest : Manifest) :
    Reads (array ManifestEntry.read) manifest.artifactsMember.text
      manifest.artifacts := by
  have heach : ReadsEach ManifestEntry.read
      (manifest.artifacts.map ManifestEntry.written) := by
    intro item hitem
    obtain ⟨entry, _, rfl⟩ := List.mem_map.mp hitem
    exact ⟨entry.reads_read, '\x7b', _, rfl, by decide, by decide⟩
  have hvalues : (manifest.artifacts.map ManifestEntry.written).map
      Written.value = manifest.artifacts := by
    rw [List.map_map]
    exact List.map_id _
  have harray : ∀ ending, AreBlank ending → Reads (array ManifestEntry.read)
      (' ' :: '[' :: (separated ('\n' :: "    ".toList) true
        (manifest.artifacts.map fun entry => entry.written.text) ++
          (ending ++ [']']))) manifest.artifacts := by
    intro ending hending
    have hblank : AreBlank [' '] := by decide
    have hlead : AreBlank ('\n' :: "    ".toList) := by decide
    have hread := reads_array heach hblank hlead (by simp) hending
    rw [hvalues, List.map_map] at hread
    exact hread
  unfold artifactsMember
  dsimp only
  split
  next hempty =>
    have hnone := harray [] (by decide)
    rw [List.isEmpty_iff.mp hempty] at hnone ⊢
    exact hnone
  next => exact harray _ (by decide)

theorem reads_read (manifest : Manifest) :
    Reads Manifest.read manifest.toJson.toList manifest := by
  intro rest
  have hmembers : ReadsMembers shape [manifest.artifactsMember] :=
    ⟨by simp [shape, artifactsMember],
      List.forall_mem_singleton.mpr manifest.reads_artifactsMember, by simp⟩
  have hnone : AreBlank [] := List.forall_mem_nil _
  have hlead : AreBlank ('\n' :: "  ".toList) := by decide
  have hending : AreBlank ['\n'] := by decide
  have hrecord := reads_record hmembers (List.Subset.refl ["artifacts"])
    hnone hlead (by simp) hending rest
  rw [toList_toJson]
  apply (bind_of_eq hrecord).trans
  rfl

theorem ofJson_toJson (manifest : Manifest) :
    ofJson manifest.toJson = .ok manifest := by
  have hread := manifest.reads_read []
  rw [List.append_nil] at hread
  unfold ofJson JsonReader.run
  rw [hread]
  rfl

end Manifest

/-- Every manifest is read back from its text as it was, and so two manifests
with the same text are the same. -/
theorem manifest_reads_back :
    (∀ manifest : Manifest, Manifest.ofJson manifest.toJson = .ok manifest) ∧
      Function.Injective Manifest.toJson := by
  refine ⟨Manifest.ofJson_toJson, ?_⟩
  intro one other hsame
  have hone := one.ofJson_toJson
  rw [hsame, other.ofJson_toJson] at hone
  exact (Except.ok.inj hone).symm

end RecordMasking
