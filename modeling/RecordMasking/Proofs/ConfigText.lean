import Mathlib.Data.List.Nodup
import RecordMasking.Config
import RecordMasking.Proofs.ObjectText

/-!
# Configurations as texts

A configuration is its defaults with the members of its text put over them.
Setting one member keeps the others, so that the order in which they stand in
the text, or are set, does not matter; with an unknown member or one that is
there twice nothing is read.
-/

namespace RecordMasking.Config

open Json Json.JsonReader

/-! ## Members -/

theorem Member.name_mem (member : Member) : member.name ∈ memberNames := by
  cases member <;> decide

theorem Member.name_injective {member other : Member}
    (hname : member.name = other.name) : member = other := by
  cases member <;> cases other <;> first | rfl | exact absurd hname (by decide)

theorem set_name (config : Config) (member : Member) (value : String) :
    config.set member.name value = config.withMember member value := by
  cases member <;> rfl

theorem withMember_comm (config : Config) {member other : Member}
    (hne : member ≠ other) (value content : String) :
    (config.withMember member value).withMember other content =
      (config.withMember other content).withMember member value := by
  cases member <;> cases other <;> first | rfl | exact absurd rfl hne

/-! ## Lists of members -/

def withMembers (config : Config) (given : List (Member × String)) : Config :=
  given.foldl (fun config entry => config.withMember entry.1 entry.2) config

/-- The members with their names, as a record has them. -/
def writtenMembers (given : List (Member × String)) : Members String :=
  given.map fun entry => (entry.1.name, entry.2)

theorem setAll_writtenMembers (config : Config)
    (given : List (Member × String)) :
    config.setAll (writtenMembers given) = config.withMembers given := by
  simp only [setAll, writtenMembers, withMembers, List.foldl_map, set_name]

theorem withMembers_perm (config : Config)
    {given order : List (Member × String)}
    (hnodup : (given.map Prod.fst).Nodup) (hperm : order.Perm given) :
    config.withMembers given = config.withMembers order := by
  apply hperm.symm.foldl_eq'
  intro entry hentry other hother config
  by_cases hsame : entry.1 = other.1
  · obtain rfl : entry = other :=
      List.inj_on_of_nodup_map hnodup hentry hother hsame
    rfl
  · exact withMember_comm config hsame entry.2 other.2

theorem admits_writtenMembers {given : List (Member × String)}
    (hnodup : (given.map Prod.fst).Nodup) :
    Admits shape.names [] ((writtenMembers given).map Prod.fst) := by
  have hnames : (writtenMembers given).map Prod.fst =
      (given.map Prod.fst).map Member.name := by
    simp [writtenMembers]
  rw [hnames]
  refine ⟨fun name hname => ?_, fun _ _ => List.not_mem_nil, ?_⟩
  · obtain ⟨member, _, rfl⟩ := List.mem_map.mp hname
    exact member.name_mem
  · exact hnodup.map fun _ _ => Member.name_injective

theorem not_admits {names : List String}
    (hrefused : (∃ name ∈ names, name ∉ memberNames) ∨ ¬ names.Nodup) :
    ¬ Admits shape.names [] names := by
  intro hadmits
  rcases hrefused with ⟨name, hname, hunknown⟩ | htwice
  · exact hunknown (hadmits.known name hname)
  · exact htwice hadmits.nodup

/-! ## Texts -/

/-- The text of an object, in whatever layout and spelling, is the defaults
with its members set in any order; if one of these is unknown or there twice,
it is malformed. -/
theorem text_is_defaults_with_members (object : ObjectText) :
    (∀ given : List (Member × String), (given.map Prod.fst).Nodup →
      object.entries =
          given.map (fun entry => (entry.1.name, some entry.2)) →
        ∀ order : List (Member × String), order.Perm given →
          ofJson object.text = .ok (withMembers {} order)) ∧
      ((∃ name ∈ object.names, name ∉ memberNames) ∨ ¬ object.names.Nodup →
        ∃ detail, ofJson object.text = .error (.malformedJson detail)) := by
  constructor
  · intro given hnodup hobject order horder
    have hentries : object.entries =
        (writtenMembers given).map fun entry => (entry.1, some entry.2) := by
      rw [hobject, writtenMembers, List.map_map]
      rfl
    have hread := run_record_strings (fun _ => rfl) rfl object hentries
      (admits_writtenMembers hnodup)
    rw [ofJson, hread]
    simp only [setAll_writtenMembers, withMembers_perm {} hnodup horder]
  · intro hrefused
    obtain ⟨fault, hfault⟩ := run_record_fails (fun _ => rfl)
      (fun _ _ => fails_fail _ _) object (not_admits hrefused)
    exact ⟨fault.message, by rw [ofJson, hfault]⟩

/-- A name with one of its characters escaped. -/
def escapedName : SpelledText where
  text := "runtime_path"
  spelling := "runtime\\u005fpath".toList
  spells := by
    have hunit : SpellsUnit '_'.toNat "005f".toList :=
      .digits (v := 0) (w := 0) (x := 5) (y := 15) (by decide) (by decide)
        (by decide) (by decide)
    have hlead : Spells "runtime".toList "runtime".toList :=
      .plain (by decide)
    have hrest : Spells "_path".toList "\\u005fpath".toList :=
      .cons (.unit hunit) (.plain (by decide))
    exact hlead.append hrest

/-- A character of two units, and a solidus behind a backslash. -/
def escapedValue : SpelledText where
  text := "😀/"
  spelling := "\\uD83D\\ude00\\/".toList
  spells := by
    have hhigh : SpellsUnit (0xd800 + 0x3d) "D83D".toList :=
      .digits (v := 13) (w := 8) (x := 3) (y := 13) (by decide) (by decide)
        (by decide) (by decide)
    have hlow : SpellsUnit (0xdc00 + 0x200) "de00".toList :=
      .digits (v := 13) (w := 14) (x := 0) (y := 0) (by decide) (by decide)
        (by decide) (by decide)
    exact .cons
      (.pair (by decide) (by decide) (by decide) hhigh hlow)
      (.cons (.short (by decide)) .nil)

def escapedMember : MemberText where
  name := escapedName
  value := .string escapedValue
  beforeName := ⟨[' '], by decide⟩
  behindName := ⟨['\t'], by decide⟩
  beforeValue := ⟨['\n'], by decide⟩
  behindValue := ⟨[], by decide⟩

def markerMember : MemberText where
  name := ⟨"model_marker", "model_marker".toList, .plain (by decide)⟩
  value := .string ⟨"Record", "Record".toList, .plain (by decide)⟩
  beforeName := ⟨[], by decide⟩
  behindName := ⟨[], by decide⟩
  beforeValue := ⟨[' '], by decide⟩
  behindValue := ⟨[' '], by decide⟩

def escapedObject : ObjectText where
  members := [escapedMember, markerMember]
  before := ⟨['\r', '\n'], by decide⟩
  beforeClosing := ⟨[], by decide⟩
  behind := ⟨['\n'], by decide⟩

theorem escaped_text_is_defaults_with_members :
    escapedObject.text =
        "\r\n\x7b \"runtime\\u005fpath\"\t:\n\"\\uD83D\\ude00\\/\"," ++
          "\"model_marker\": \"Record\" \x7d\n" ∧
      ofJson escapedObject.text =
        .ok { modelMarker := "Record", runtimePath := "😀/" } ∧
      ∃ detail,
        ofJson { escapedObject with
          members := escapedObject.members ++ [escapedMember] }.text =
            .error (.malformedJson detail) := by
  refine ⟨by decide +kernel, ?_, ?_⟩
  · exact (text_is_defaults_with_members escapedObject).1
      [(.runtimePath, "😀/"), (.modelMarker, "Record")] (by decide) rfl
      [(.modelMarker, "Record"), (.runtimePath, "😀/")] (.swap _ _ _)
  · exact (text_is_defaults_with_members _).2 (.inr (by decide +kernel))

end RecordMasking.Config
