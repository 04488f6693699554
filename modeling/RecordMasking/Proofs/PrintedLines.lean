import Mathlib.Data.List.Forall2
import RecordMasking.BuildLog
import RecordMasking.Generator

/-!
# What a build log prints

Records are printed one by one, each behind what was printed before it.  The
texts of a record are put together before its line breaks are flattened, so
that none of them, wherever it stands, can end a line or start one: what is
printed for diagnostics is one line for each of them that reaches the level of
the log, and only warnings and errors begin like a directive of the build.
-/

namespace RecordMasking

namespace BuildLog

/-! ## Texts on one line -/

theorem flatten_ne_break (c : Char) : flatten c ≠ '\n' ∧ flatten c ≠ '\r' := by
  unfold flatten
  split
  next => decide
  next hbreak => simpa using hbreak

theorem toList_onOneLine (text : String) :
    (onOneLine text).toList = text.toList.map flatten := by
  unfold onOneLine
  rw [String.toList_ofList]

theorem onOneLine_append (text behind : String) :
    onOneLine (text ++ behind) = onOneLine text ++ onOneLine behind := by
  rw [← String.toList_inj, String.toList_append]
  simp only [toList_onOneLine, String.toList_append, List.map_append]

/-- A blank for each line break of a text, and nothing else changed. -/
def IsFlattened (text line : String) : Prop :=
  List.Forall₂ (fun c d => d = if c = '\n' ∨ c = '\r' then ' ' else c)
    text.toList line.toList

theorem isFlattened_onOneLine (text : String) :
    IsFlattened text (onOneLine text) := by
  unfold IsFlattened
  rw [toList_onOneLine, List.forall₂_map_right_iff, List.forall₂_same]
  intro c _
  simp [flatten]

/-- A text that neither ends a line nor starts one. -/
def IsUnbroken (text : String) : Prop :=
  ∀ c ∈ text.toList, c ≠ '\n' ∧ c ≠ '\r'

-- Characters are finitely many: without this instance all of them are tried.
instance (text : String) : Decidable (IsUnbroken text) :=
  List.decidableBAll _ text.toList

theorem isUnbroken_onOneLine (text : String) :
    IsUnbroken (onOneLine text) := by
  intro c hc
  rw [toList_onOneLine] at hc
  obtain ⟨d, _, rfl⟩ := List.mem_map.mp hc
  exact flatten_ne_break d

theorem IsUnbroken.append {text behind : String} (htext : IsUnbroken text)
    (hbehind : IsUnbroken behind) : IsUnbroken (text ++ behind) := by
  intro c hc
  rw [String.toList_append, List.mem_append] at hc
  exact hc.elim (htext c) (hbehind c)

/-! ## The line of a diagnostic -/

/-- A line that tells of a diagnostic: it begins with the mark of the severity
and the message, and it is the only line there. -/
structure IsLineOf (diagnostic : Diagnostic) (line : String) : Prop where
  unbroken : IsUnbroken line
  warning : diagnostic.severity = .warning ∨ diagnostic.severity = .error →
    ∃ message behind, IsFlattened diagnostic.message message ∧
      line = "cargo:warning=" ++ message ++ behind
  plain : ¬(diagnostic.severity = .warning ∨ diagnostic.severity = .error) →
    ∃ message behind, IsFlattened diagnostic.message message ∧
      line = "[masking] " ++ (Level.ofSeverity diagnostic.severity).tag ++
        ": " ++ message ++ behind
  /-- Only warnings and errors are directives. -/
  directive : "cargo:".toList <+: line.toList →
    diagnostic.severity = .warning ∨ diagnostic.severity = .error

theorem reaches_warning_iff (severity : Severity) :
    (Level.ofSeverity severity).reaches .warning = true ↔
      severity = .warning ∨ severity = .error := by
  cases severity <;> decide

/-- What stands in front of the texts of a record. -/
def mark (level : Level) : String :=
  if level.reaches .warning then "cargo:warning="
  else "[masking] " ++ level.tag ++ ": "

theorem isUnbroken_mark (level : Level) : IsUnbroken (mark level) := by
  cases level <;> decide

theorem line_eq (log : BuildLog) (record : LogRecord) :
    ∃ behind, log.line record =
      mark record.level ++ onOneLine record.message ++ onOneLine behind := by
  refine ⟨String.join
    ((record.pairs ++ log.context.reverse).map pairText), ?_⟩
  rw [String.append_assoc, ← onOneLine_append]
  rfl

theorem isLineOf_line (log : BuildLog) (diagnostic : Diagnostic) :
    IsLineOf diagnostic (log.line (.ofDiagnostic diagnostic)) := by
  obtain ⟨behind, hline⟩ := log.line_eq (.ofDiagnostic diagnostic)
  have hplain :
      ¬(diagnostic.severity = .warning ∨ diagnostic.severity = .error) →
      log.line (.ofDiagnostic diagnostic) =
        "[masking] " ++ (Level.ofSeverity diagnostic.severity).tag ++ ": " ++
          onOneLine diagnostic.message ++ onOneLine behind := by
    intro hbelow
    rw [hline, mark, if_neg]
    · rfl
    · exact fun hreaches => hbelow ((reaches_warning_iff _).mp hreaches)
  constructor
  · rw [hline]
    exact ((isUnbroken_mark _).append (isUnbroken_onOneLine _)).append
      (isUnbroken_onOneLine _)
  · intro hwarns
    refine ⟨_, onOneLine behind, isFlattened_onOneLine _, ?_⟩
    rw [hline, mark, if_pos]
    · rfl
    · exact (reaches_warning_iff _).mpr hwarns
  · intro hbelow
    exact ⟨_, onOneLine behind, isFlattened_onOneLine _, hplain hbelow⟩
  · intro hdirective
    by_contra hbelow
    -- The mark of a plain line starts with a bracket.
    rw [hplain hbelow] at hdirective
    simp at hdirective

/-! ## What is printed -/

theorem prints_ofDiagnostic (log : BuildLog) (diagnostic : Diagnostic) :
    log.prints (.ofDiagnostic diagnostic) =
      (Level.ofSeverity diagnostic.severity).reaches log.least := by
  unfold prints LogRecord.ofDiagnostic
  cases diagnostic.severity <;> simp [Level.ofSeverity]

theorem lines_cons (log : BuildLog) (record : LogRecord)
    (records : List LogRecord) :
    log.lines (record :: records) =
      log.lines [record] ++ log.lines records := by
  unfold lines
  rw [← List.map_append, ← List.filter_append, List.singleton_append]

/-- One more record adds its line, or nothing. -/
theorem print_eq (log : BuildLog) (printed : String) (record : LogRecord) :
    log.print printed record =
      printed ++ String.join ((log.lines [record]).map (· ++ "\n")) := by
  unfold print lines
  cases hprints : log.prints record with
  | true => simp [hprints, String.append_assoc]
  | false => simp [hprints]

theorem foldl_print (log : BuildLog) (printed : String)
    (records : List LogRecord) :
    records.foldl log.print printed =
      printed ++ String.join ((log.lines records).map (· ++ "\n")) := by
  induction records generalizing printed with
  | nil => simp [lines]
  | cons record rest ih =>
      rw [List.foldl_cons, ih, print_eq, log.lines_cons record rest,
        List.map_append, String.join_append, String.append_assoc]

/-- A printed text consists of one line for each diagnostic that reaches the
level, in their order. -/
def Tells (least : Level) (diagnostics : DiagnosticLog) (printed : String) :
    Prop :=
  ∃ lines : List String, printed = String.join (lines.map (· ++ "\n")) ∧
    List.Forall₂ IsLineOf
      (diagnostics.filter fun diagnostic =>
        (Level.ofSeverity diagnostic.severity).reaches least) lines

theorem tells_output (log : BuildLog) (diagnostics : DiagnosticLog) :
    Tells log.least diagnostics
      (log.output (diagnostics.map LogRecord.ofDiagnostic)) := by
  refine ⟨log.lines (diagnostics.map LogRecord.ofDiagnostic), ?_, ?_⟩
  · unfold output
    rw [foldl_print, String.empty_append]
  · have hkept : (diagnostics.map LogRecord.ofDiagnostic).filter log.prints =
        (diagnostics.filter fun diagnostic =>
          (Level.ofSeverity diagnostic.severity).reaches log.least).map
            LogRecord.ofDiagnostic := by
      rw [List.filter_map]
      refine congrArg _ (List.filter_congr fun diagnostic _ => ?_)
      exact log.prints_ofDiagnostic diagnostic
    unfold lines
    rw [hkept, List.map_map, List.forall₂_map_right_iff, List.forall₂_same]
    exact fun diagnostic _ => log.isLineOf_line diagnostic

/-- However hostile the texts of diagnostics and of the context are, a build
log prints one line for each diagnostic from its level on, in their order and
with nothing in between; so a run that is reported to it prints what a log of
the run's diagnostics holds. -/
theorem prints_line_for_line (log : BuildLog) :
    (∀ diagnostics : DiagnosticLog,
      Tells log.least diagnostics
        (log.output (diagnostics.map LogRecord.ofDiagnostic))) ∧
      ∀ (schema : Schema) (config : Config) (emission : Emission)
        (tree : OutputTree),
        let told := (schema.run config emission tree).1.log
        Tells log.least told
          (log.output (told.map LogRecord.ofDiagnostic)) :=
  ⟨log.tells_output, fun schema config emission tree =>
    log.tells_output (schema.run config emission tree).1.log⟩

/-- A message that looks like a directive stays inside its line. -/
example :
    (BuildLog.mk .debug [("crate", "a\nb")]).output
        [.ofDiagnostic
          { severity := .info, kind := "k\rk"
            message := "\ncargo:rustc-cfg=x" }] =
      "[masking] INFO:  cargo:rustc-cfg=x kind=k k crate=a b\n" := by
  decide

end BuildLog

end RecordMasking
