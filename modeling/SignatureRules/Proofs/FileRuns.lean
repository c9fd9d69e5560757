import Mathlib.Data.String.Basic
import SignatureRules.CommandLine.RuleFiles

namespace SignatureRules.CommandLine

structure ReadFile where
  path : String
  text : String

namespace ReadFile

def file (read : ReadFile) : RuleFile := ⟨read.path, .ok read.text⟩

def rule? (flags : Flags) (read : ReadFile) : Option Rule :=
  (parse read.text ⟨!flags.noConditionSkip⟩).toOption

def diagnosis? (flags : Flags) (read : ReadFile) : Option Notice :=
  match parse read.text ⟨!flags.noConditionSkip⟩ with
  | .ok _ => none
  | .error error => some (.diagnosed read.path read.text error.diagnostic)

end ReadFile

inductive Handles : List RuleFile → List ReadFile → Option (String × ReadFault) → Prop
  | finished : Handles [] [] none
  | next {read files handled stopped} : Handles files handled stopped →
      Handles (ReadFile.file read :: files) (read :: handled) stopped
  | stopped {path fault later} :
      Handles (⟨path, .error fault⟩ :: later) [] (some (path, fault))

structure Report.Covers (flags : Flags) (handled : List ReadFile)
    (stopped : Option (String × ReadFault)) (report : Report) : Prop where
  output : report.output =
    if flags.tokens then String.join (handled.map fun read => tokenListing read.text)
    else String.join ((handled.filterMap (·.rule? flags)).map Rule.listing)
  notices : report.notices =
    (if flags.tokens then [] else handled.filterMap (·.diagnosis? flags)) ++
      stopped.toList.map fun (path, fault) => .unreadable path fault
  status : report.status.code =
    if stopped.isSome then 1
    else if flags.tokens = false ∧ ∃ read ∈ handled, read.rule? flags = none then 2
    else 0
  last_line : ∀ renderer path fault, stopped = some (path, fault) →
    (report.notices.flatMap (Notice.linesBy renderer)).getLast? =
      some ("Cannot read rules file " ++ path ++ ": " ++ fault.message)

theorem exists_handles (files : List RuleFile) :
    ∃ handled stopped, Handles files handled stopped := by
  induction files with
  | nil => exact ⟨[], none, .finished⟩
  | cons file files ih =>
    obtain ⟨path, contents⟩ := file
    cases contents with
    | error fault => exact ⟨[], some (path, fault), .stopped⟩
    | ok text =>
      obtain ⟨handled, stopped, h⟩ := ih
      exact ⟨⟨path, text⟩ :: handled, stopped, @Handles.next ⟨path, text⟩ _ _ _ h⟩

namespace Status

theorem before_assoc (first second third : Status) :
    (first.before second).before third = first.before (second.before third) := by
  cases first <;> cases second <;> cases third <;> rfl

theorem code_before {earlier later : Status} (h : earlier ≠ .unreadable) :
    (earlier.before later).code =
      if later.code = 1 then 1 else max earlier.code later.code := by
  cases earlier with
  | unreadable => exact absurd rfl h
  | success => cases later <;> rfl
  | faulty => cases later <;> rfl

theorem code_faulty_before (later : Status) :
    (faulty.before later).code = if later.code = 1 then 1 else 2 := by
  cases later <;> rfl

theorem before_ne {earlier later : Status} (h : earlier ≠ .unreadable) (hl : later ≠ .unreadable) :
    earlier.before later ≠ .unreadable := by
  cases earlier with
  | unreadable => exact absurd rfl h
  | success => exact hl
  | faulty =>
    cases later with
    | unreadable => exact absurd rfl hl
    | _ => exact nofun

end Status

namespace Report

theorem empty_append (report : Report) : empty.append report = report := by
  rw [append, empty, String.empty_append]
  rfl

theorem append_assoc (first second third : Report) :
    (first.append second).append third = first.append (second.append third) := by
  simp only [append, String.append_assoc, List.append_assoc, Status.before_assoc]

end Report

variable {flags : Flags} {handled : List ReadFile} {stopped : Option (String × ReadFault)}
  {report : Report}

theorem reportFiles_cons (flags : Flags) (read : ReadFile) (files : List RuleFile) :
    reportFiles flags (read.file :: files) =
      (reportText flags read.path read.text).append (reportFiles flags files) := rfl

theorem reportFiles_append (flags : Flags) (handled : List ReadFile) (later : List RuleFile) :
    reportFiles flags (handled.map ReadFile.file ++ later) =
      (reportFiles flags (handled.map ReadFile.file)).append (reportFiles flags later) := by
  induction handled with
  | nil => exact (Report.empty_append _).symm
  | cons read handled ih =>
    rw [List.map_cons, List.cons_append, reportFiles_cons, reportFiles_cons, ih, Report.append_assoc]

theorem status_reportText_ne (flags : Flags) (read : ReadFile) :
    (reportText flags read.path read.text).status ≠ .unreadable := by
  rw [reportText]
  split
  · exact nofun
  · split <;> exact nofun

theorem status_reportFiles_ne (flags : Flags) (handled : List ReadFile) :
    (reportFiles flags (handled.map ReadFile.file)).status ≠ .unreadable := by
  induction handled with
  | nil => exact nofun
  | cons read handled ih =>
    rw [List.map_cons, reportFiles_cons]
    exact Status.before_ne (status_reportText_ne flags read) ih

theorem reportText_tokens (ht : flags.tokens = true) (read : ReadFile) :
    reportText flags read.path read.text = ⟨tokenListing read.text, [], .success⟩ := by
  rw [reportText, if_pos ht]

theorem reportText_rule (ht : flags.tokens = false) {read : ReadFile} {rule : Rule}
    (hp : parse read.text ⟨!flags.noConditionSkip⟩ = .ok rule) :
    reportText flags read.path read.text = ⟨rule.listing, [], .success⟩ := by
  simp [reportText, ht, Flags.parseOptions, hp]

theorem reportText_error (ht : flags.tokens = false) {read : ReadFile} {error : ParseError}
    (hp : parse read.text ⟨!flags.noConditionSkip⟩ = .error error) :
    reportText flags read.path read.text =
      ⟨"", [.diagnosed read.path read.text error.diagnostic], .faulty⟩ := by
  simp [reportText, ht, Flags.parseOptions, hp]

namespace Report.Covers

theorem nothing (flags : Flags) : empty.Covers flags [] none := by
  constructor
  · split <;> rfl
  · split <;> rfl
  · simp [empty, Status.code]
  · exact nofun

theorem unreadable (flags : Flags) (path : String) (fault : ReadFault) :
    (⟨"", [.unreadable path fault], .unreadable⟩ : Report).Covers flags []
      (some (path, fault)) := by
  constructor
  · split <;> rfl
  · split <;> rfl
  · rfl
  · rintro _ _ _ ⟨⟩
    rfl

theorem last_line_append (h : report.Covers flags handled stopped) (notices : List Notice) :
    ∀ renderer path fault, stopped = some (path, fault) →
      ((notices ++ report.notices).flatMap (Notice.linesBy renderer)).getLast? =
        some ("Cannot read rules file " ++ path ++ ": " ++ fault.message) := by
  intro renderer path fault hs
  rw [List.flatMap_append, List.getLast?_append, h.last_line renderer path fault hs]
  rfl

theorem code_eq_one_iff (h : report.Covers flags handled stopped) :
    report.status.code = 1 ↔ stopped.isSome = true := by
  rw [h.status]
  split
  · rename_i hs
    exact iff_of_true rfl hs
  · rename_i hs
    split <;> exact iff_of_false (by decide) hs

theorem cons_tokens (h : report.Covers flags handled stopped)
    (ht : flags.tokens = true) (read : ReadFile) :
    ((reportText flags read.path read.text).append report).Covers flags (read :: handled)
      stopped := by
  rw [reportText_tokens ht]
  refine ⟨?_, ?_, ?_, h.last_line_append []⟩
  · rw [if_pos ht, List.map_cons, String.join_cons, append, h.output, if_pos ht]
  · rw [append, List.nil_append, h.notices, if_pos ht, if_pos ht]
  · have hstatus := h.status
    simp only [ht, Bool.true_eq_false, false_and] at hstatus ⊢
    exact hstatus

theorem cons_rules (h : report.Covers flags handled stopped)
    (ht : flags.tokens = false) (read : ReadFile) :
    ((reportText flags read.path read.text).append report).Covers flags (read :: handled)
      stopped := by
  have houtput := h.output
  have hnotices := h.notices
  have hstatus := h.status
  simp only [ht, Bool.false_eq_true, if_false, true_and] at houtput hnotices hstatus
  cases hp : parse read.text ⟨!flags.noConditionSkip⟩ with
  | ok rule =>
    have hrule : read.rule? flags = some rule := by rw [ReadFile.rule?, hp]; rfl
    have hdiagnosis : read.diagnosis? flags = none := by rw [ReadFile.diagnosis?, hp]
    rw [reportText_rule ht hp]
    refine ⟨?_, ?_, ?_, h.last_line_append []⟩
    · simp [ht, append, houtput, hrule]
    · simp [ht, append, hnotices, hdiagnosis]
    · simp [ht, append, Status.before, hstatus, hrule]
  | error error =>
    have hrule : read.rule? flags = none := by rw [ReadFile.rule?, hp]; rfl
    have hdiagnosis : read.diagnosis? flags =
        some (.diagnosed read.path read.text error.diagnostic) := by
      rw [ReadFile.diagnosis?, hp]
    rw [reportText_error ht hp]
    refine ⟨?_, ?_, ?_, h.last_line_append [_]⟩
    · simp [ht, append, houtput, hrule]
    · simp [ht, append, hnotices, hdiagnosis]
    · simp [ht, append, Status.code_faulty_before, h.code_eq_one_iff, hrule]

end Report.Covers

theorem Handles.covers {files : List RuleFile} (h : Handles files handled stopped) :
    (reportFiles flags files).Covers flags handled stopped := by
  induction h with
  | finished => exact .nothing flags
  | @next read files _ _ _ ih =>
    rw [reportFiles_cons]
    cases ht : flags.tokens with
    | true => exact ih.cons_tokens ht read
    | false => exact ih.cons_rules ht read
  | stopped => exact .unreadable flags _ _

/-- A run reports on the files up to the first that cannot be read. If all of one list of files can
be read, a run over that list and another has the report on the first list and then that on the
other. -/
theorem reportOn_files (flags : Flags) :
    (∀ files, ∃ handled stopped, Handles files handled stopped ∧
      (reportFiles flags files).Covers flags handled stopped) ∧
    ∀ (handled : List ReadFile) (later : List RuleFile),
      let front := reportFiles flags (handled.map ReadFile.file)
      let back := reportFiles flags later
      let whole := reportFiles flags (handled.map ReadFile.file ++ later)
      whole.output = front.output ++ back.output ∧ whole.notices = front.notices ++ back.notices ∧
        whole.status.code =
          if back.status.code = 1 then 1 else max front.status.code back.status.code := by
  constructor
  · intro files
    obtain ⟨handled, stopped, h⟩ := exists_handles files
    exact ⟨handled, stopped, h, h.covers⟩
  · intro handled later front back whole
    have hwhole : whole = front.append back := reportFiles_append flags handled later
    rw [hwhole]
    exact ⟨rfl, rfl, Status.code_before (status_reportFiles_ne flags handled)⟩

end SignatureRules.CommandLine
