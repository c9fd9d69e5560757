import SignatureRules.Proofs.TokenTiling

/-! A cursor is an index into its text and a flag that tells whether the last step was a read that can
be undone. Whatever is asked of the two, in whatever order, they answer alike. -/

namespace SignatureRules

inductive Cursor.Call
  | read
  | unread
  | advance (count : Nat)
  | mark
  | span (mark : Nat)
  | slice (mark : Nat)
deriving DecidableEq, Repr

inductive Cursor.Reply
  | character (found : Option Char)
  | done
  | span (span : Span)
  | slice (text : List Char)
deriving DecidableEq, Repr

open Cursor (Call Reply)

structure MarkedCursor where
  cursor : Cursor
  marks : List Position
deriving DecidableEq, Repr

namespace MarkedCursor

def ofSource (source : String) : MarkedCursor := ⟨.atStart source.toList, []⟩

def perform (session : MarkedCursor) : Call → Reply × MarkedCursor
  | .read =>
    match session.cursor.read? with
    | some (c, cursor) => (.character (some c), { session with cursor })
    | none => (.character none, session)
  | .unread => (.done, { session with cursor := session.cursor.unread })
  | .advance count =>
    let rest := session.cursor.rest.drop count
    (.done, { session with cursor := session.cursor.advanceTo rest })
  | .mark => (.done, { session with marks := session.marks ++ [session.cursor.pos] })
  | .span mark =>
    match session.marks[mark]? with
    | some start => (.span (session.cursor.spanFrom start), session)
    | none => (.done, session)
  | .slice mark =>
    match session.marks[mark]? with
    | some start => (.slice (session.cursor.sliceFrom start), session)
    | none => (.done, session)

def performAll (session : MarkedCursor) (calls : List Call) : MarkedCursor :=
  calls.foldl (fun session call => (session.perform call).2) session

def transcript (session : MarkedCursor) : List Call → List (Reply × List Char)
  | [] => []
  | call :: calls =>
    let (reply, after) := session.perform call
    (reply, after.cursor.rest) :: after.transcript calls

/-- A read can be taken back, no more than one can, and a slice is the source at its span. -/
structure Coherent (source : String) (session : MarkedCursor) : Prop where
  unread_of_read : ∀ c after, session.cursor.read? = some (c, after) →
    after.unread.rest = session.cursor.rest
  unread_unread : session.cursor.unread.unread = session.cursor.unread
  unread_advanceTo : ∀ rest, rest <:+ session.cursor.rest →
    (session.cursor.advanceTo rest).unread = session.cursor.advanceTo rest
  slice_eq : ∀ mark ∈ session.marks, mark.offset ≤ session.cursor.pos.offset →
    .ofList (session.cursor.sliceFrom mark) = (session.cursor.spanFrom mark).textIn source

end MarkedCursor

structure MarkedIndex where
  index : Nat
  undoable : Bool
  marks : List Nat
deriving DecidableEq, Repr

namespace MarkedIndex

def start : MarkedIndex := ⟨0, false, []⟩

def spanFrom (text : List Char) (mark : Nat) (state : MarkedIndex) : Span :=
  ⟨byteSize (text.take mark), byteSize (text.take state.index)⟩

def sliceFrom (text : List Char) (mark : Nat) (state : MarkedIndex) : List Char :=
  (text.take state.index).drop mark

def perform (text : List Char) (state : MarkedIndex) : Call → Reply × MarkedIndex
  | .read =>
    match text[state.index]? with
    | some c => (.character (some c), { state with index := state.index + 1, undoable := true })
    | none => (.character none, state)
  | .unread =>
    if state.undoable then (.done, { state with index := state.index - 1, undoable := false })
    else (.done, state)
  | .advance count => (.done, { state with index := state.index + count, undoable := false })
  | .mark => (.done, { state with marks := state.marks ++ [state.index] })
  | .span mark =>
    match state.marks[mark]? with
    | some start => (.span (state.spanFrom text start), state)
    | none => (.done, state)
  | .slice mark =>
    match state.marks[mark]? with
    | some start => (.slice (state.sliceFrom text start), state)
    | none => (.done, state)

def transcript (text : List Char) (state : MarkedIndex) : List Call → List (Reply × List Char)
  | [] => []
  | call :: calls =>
    let (reply, after) := state.perform text call
    (reply, text.drop after.index) :: after.transcript text calls

/-- The cursor is moved on no farther than to the end, and a mark asked for is not ahead of it. -/
def Permits (text : List Char) (state : MarkedIndex) : Call → Prop
  | .advance count => state.index + count ≤ text.length
  | .span mark | .slice mark => ∃ start, state.marks[mark]? = some start ∧ start ≤ state.index
  | _ => True

def PermitsAll (text : List Char) (state : MarkedIndex) : List Call → Prop
  | [] => True
  | call :: calls =>
    state.Permits text call ∧ (state.perform text call).2.PermitsAll text calls

end MarkedIndex

namespace Position

variable {text : List Char} {c : Char} {i m : Nat}

def ofIndex (text : List Char) (i : Nat) : Position := ⟨byteSize (text.take i), text.drop i⟩

theorem advance_ofIndex (text : List Char) (i n : Nat) :
    (ofIndex text i).advance n = ofIndex text (i + n) := by
  simp [ofIndex, advance, List.take_add]

theorem rest_ofIndex_of_getElem? (h : text[i]? = some c) :
    (ofIndex text i).rest = c :: text.drop (i + 1) := by
  obtain ⟨hi, rfl⟩ := List.getElem?_eq_some_iff.mp h
  exact List.drop_eq_getElem_cons hi

theorem rest_ofIndex_of_getElem?_none (h : text[i]? = none) : (ofIndex text i).rest = [] :=
  List.drop_eq_nil_iff.mpr (List.getElem?_eq_none_iff.mp h)

theorem length_rest_ofIndex (text : List Char) (i : Nat) :
    (ofIndex text i).rest.length = text.length - i :=
  List.length_drop

theorem offset_ofIndex_lt (him : i < m) (hm : m ≤ text.length) :
    (ofIndex text i).offset < (ofIndex text m).offset := by
  have hlt : i < (text.take m).length := by
    rw [List.length_take]
    exact lt_min him (him.trans_le hm)
  have hsize := byteSize_take_lt hlt
  rw [List.take_take, min_eq_left him.le] at hsize
  exact hsize

end Position

namespace MarkedIndex

variable {text : List Char} {source : String} {state : MarkedIndex} {call : Call} {calls : List Call}

def session (text : List Char) (state : MarkedIndex) : MarkedCursor where
  cursor.pos := .ofIndex text state.index
  cursor.undo := if state.undoable then some (.ofIndex text (state.index - 1)) else none
  marks := state.marks.map (.ofIndex text)

structure Within (text : List Char) (state : MarkedIndex) : Prop where
  index_le : state.index ≤ text.length
  marks_le : ∀ mark ∈ state.marks, mark ≤ text.length

theorem within_start (text : List Char) : start.Within text :=
  ⟨Nat.zero_le _, nofun⟩

theorem session_start (source : String) : start.session source.toList = .ofSource source := rfl

theorem Within.perform (h : state.Within text) (hc : state.Permits text call) :
    (state.perform text call).2.Within text := by
  cases call with
  | read =>
    cases hx : text[state.index]? with
    | none => simpa only [MarkedIndex.perform, hx] using h
    | some c =>
      simp only [MarkedIndex.perform, hx]
      obtain ⟨hlt, -⟩ := List.getElem?_eq_some_iff.mp hx
      exact ⟨hlt, h.marks_le⟩
  | unread =>
    simp only [MarkedIndex.perform]
    split
    · exact ⟨(Nat.sub_le ..).trans h.index_le, h.marks_le⟩
    · exact h
  | advance count => exact ⟨hc, h.marks_le⟩
  | mark =>
    refine ⟨h.index_le, fun mark hm => ?_⟩
    rcases List.mem_append.mp hm with hm | hm
    · exact h.marks_le mark hm
    · rw [List.mem_singleton.mp hm]
      exact h.index_le
  | span mark | slice mark =>
    obtain ⟨start, hs, -⟩ := hc
    simpa only [MarkedIndex.perform, hs] using h

theorem getElem?_marks_session {mark start : Nat} (h : state.marks[mark]? = some start) :
    (state.session text).marks[mark]? = some (.ofIndex text start) := by
  rw [session, List.getElem?_map, h, Option.map_some]

theorem sliceFrom_session (h : state.Within text) {m : Nat} (hm : m ≤ state.index) :
    (state.session text).cursor.sliceFrom (.ofIndex text m) = state.sliceFrom text m := by
  have hle := h.index_le
  have hcount : (text.length - m) - (text.length - state.index) = state.index - m := by omega
  simp only [Cursor.sliceFrom, Cursor.rest, session, Position.length_rest_ofIndex, hcount]
  exact (List.drop_take ..).symm

theorem perform_session (h : state.Within text) (hc : state.Permits text call) :
    (state.session text).perform call =
      ((state.perform text call).1, (state.perform text call).2.session text) := by
  cases call with
  | read =>
    cases hx : text[state.index]? with
    | none =>
      have hr : (state.session text).cursor.read? = none :=
        Cursor.read?_eq_none_iff.mpr (Position.rest_ofIndex_of_getElem?_none hx)
      simp only [MarkedCursor.perform, MarkedIndex.perform, hr, hx]
    | some c =>
      have hr : (state.session text).cursor.read? = some (c,
          ⟨.ofIndex text (state.index + 1), some (.ofIndex text state.index)⟩) := by
        simp only [Cursor.read?, Cursor.rest, session, Position.rest_ofIndex_of_getElem? hx,
          Position.advance_ofIndex]
      simp only [MarkedCursor.perform, MarkedIndex.perform, hr, hx]
      rfl
  | unread =>
    cases hu : state.undoable <;>
      simp [MarkedCursor.perform, MarkedIndex.perform, session, Cursor.unread, hu]
  | advance count =>
    have hcount : (text.length - state.index) - (text.length - state.index - count) = count := by
      change state.index + count ≤ text.length at hc
      omega
    simp only [MarkedCursor.perform, MarkedIndex.perform, Cursor.advanceTo, Cursor.rest,
      List.length_drop, session, Position.length_rest_ofIndex, hcount, Position.advance_ofIndex]
    rfl
  | mark =>
    simp only [MarkedCursor.perform, MarkedIndex.perform, session, List.map_append]
    rfl
  | span mark =>
    obtain ⟨start, hs, -⟩ := hc
    simp only [MarkedCursor.perform, MarkedIndex.perform, getElem?_marks_session hs, hs]
    rfl
  | slice mark =>
    obtain ⟨start, hs, hle⟩ := hc
    simp only [MarkedCursor.perform, MarkedIndex.perform, getElem?_marks_session hs, hs,
      sliceFrom_session h hle]

theorem transcript_session (h : state.Within text) (hc : state.PermitsAll text calls) :
    (state.session text).transcript calls = state.transcript text calls := by
  induction calls generalizing state with
  | nil => rfl
  | cons call calls ih =>
    obtain ⟨hcall, hcalls⟩ := hc
    simp only [MarkedCursor.transcript, MarkedIndex.transcript, perform_session h hcall,
      ih (h.perform hcall) hcalls]
    rfl

theorem exists_performAll_session (h : state.Within text) (hc : state.PermitsAll text calls) :
    ∃ after : MarkedIndex, after.Within text ∧
      (state.session text).performAll calls = after.session text := by
  induction calls generalizing state with
  | nil => exact ⟨state, h, rfl⟩
  | cons call calls ih =>
    obtain ⟨hcall, hcalls⟩ := hc
    obtain ⟨after, hafter, heq⟩ := ih (h.perform hcall) hcalls
    refine ⟨after, hafter, ?_⟩
    rw [← heq, MarkedCursor.performAll, List.foldl_cons, perform_session h hcall]
    rfl

theorem Within.coherent (h : state.Within source.toList) :
    (state.session source.toList).Coherent source where
  unread_of_read _ _ hr := congrArg Position.rest (Cursor.unread_of_read? hr)
  unread_unread := by
    simp only [Cursor.unread, session]
    cases state.undoable <;> rfl
  unread_advanceTo _ _ := rfl
  slice_eq mark hmark hle := by
    obtain ⟨m, hm, rfl⟩ := List.mem_map.mp hmark
    have hmi : m ≤ state.index :=
      not_lt.mp fun hlt => hle.not_gt (Position.offset_ofIndex_lt hlt (h.marks_le m hm))
    have htake : source.toList.take state.index =
        source.toList.take m ++ state.sliceFrom source.toList m := by
      rw [MarkedIndex.sliceFrom, ← min_eq_left hmi, ← List.take_take, min_eq_left hmi,
        List.take_append_drop]
    have hsource : source.toList = source.toList.take m ++ state.sliceFrom source.toList m ++
        source.toList.drop state.index := by
      rw [← htake, List.take_append_drop]
    rw [sliceFrom_session h hmi, ← textIn_of_append hsource, ← htake]
    rfl

end MarkedIndex

theorem cursor_simulates_index (source : String) (calls : List Call)
    (h : MarkedIndex.start.PermitsAll source.toList calls) :
    (MarkedCursor.ofSource source).transcript calls =
        MarkedIndex.start.transcript source.toList calls ∧
      ((MarkedCursor.ofSource source).performAll calls).Coherent source := by
  have hstart := MarkedIndex.within_start source.toList
  rw [← MarkedIndex.session_start]
  refine ⟨MarkedIndex.transcript_session hstart h, ?_⟩
  obtain ⟨after, hafter, heq⟩ := MarkedIndex.exists_performAll_session hstart h
  rw [heq]
  exact hafter.coherent

theorem cursor_simulates_index_at_end :
    (MarkedCursor.ofSource "ré\x7d").transcript [.mark, .advance 2, .unread, .read, .read, .unread,
        .unread, .span 0, .slice 0] =
      [(.done, ['r', 'é', '\x7d']), (.done, ['\x7d']), (.done, ['\x7d']),
        (.character (some '\x7d'), []), (.character none, []), (.done, ['\x7d']), (.done, ['\x7d']),
        (.span ⟨0, 3⟩, ['\x7d']), (.slice ['r', 'é'], ['\x7d'])] := by
  have hpermits : MarkedIndex.start.PermitsAll "ré\x7d".toList [.mark, .advance 2, .unread, .read,
      .read, .unread, .unread, .span 0, .slice 0] :=
    ⟨trivial, show 0 + 2 ≤ 3 by decide, trivial, trivial, trivial, trivial, trivial,
      ⟨0, rfl, Nat.zero_le _⟩, ⟨0, rfl, Nat.zero_le _⟩, trivial⟩
  rw [(cursor_simulates_index _ _ hpermits).1]
  rfl

end SignatureRules
