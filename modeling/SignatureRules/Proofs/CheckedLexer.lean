import SignatureRules.Proofs.StoredText
import SignatureRules.Proofs.Tokenization

/-! The lexer on a text in memory. It works with addresses and sizes and stops at the first fault.
There is none, and the tokens are those of the lexer. -/

namespace SignatureRules

/-- A text, what of it is ahead, and what was ahead before the last character was read, if that can
be taken back. -/
structure StoredCursor where
  memory : Memory
  ahead : Slice
  undo : Option Slice
deriving DecidableEq, Repr

def Lexeme.closedBlock? : List Char → Option Scanned
  | [] => none
  | [_] => none
  | c :: d :: cs =>
    if c = '*' ∧ d = '/' then some ⟨[], cs⟩
    else (closedBlock? (d :: cs)).map fun tail => ⟨c :: tail.text, tail.rest⟩

namespace StoredCursor

def rest (cursor : StoredCursor) : Attempt (List Char) := cursor.memory.textOf cursor.ahead

def read? (cursor : StoredCursor) : Attempt (Option (Char × StoredCursor)) := do
  match ← cursor.rest with
  | [] => return none
  | c :: _ =>
    let ahead ← cursor.memory.dropBytes c.utf8Size cursor.ahead
    return some (c, { cursor with ahead, undo := some cursor.ahead })

/-- Takes back a character. To read on has to give the same character and to lead back here. -/
def unread (c : Char) (cursor : StoredCursor) : Attempt StoredCursor :=
  match cursor.undo with
  | none => .error .notJustRead
  | some ahead => do
    let before := { cursor with ahead, undo := none }
    if (← before.read?) = some (c, cursor) then return before else throw .notJustRead

def advanceTo (rest : List Char) (cursor : StoredCursor) : Attempt StoredCursor := do
  let size ← subtract cursor.ahead.size (byteSize rest)
  return { cursor with ahead := ← cursor.memory.dropBytes size cursor.ahead, undo := none }

def spanFrom (start : Slice) (cursor : StoredCursor) : Attempt Span := do
  return ⟨← subtract start.address cursor.memory.address,
    ← subtract cursor.ahead.address cursor.memory.address⟩

def sliceFrom (start : Slice) (cursor : StoredCursor) : Attempt (List Char) := do
  let size ← subtract start.size cursor.ahead.size
  cursor.memory.textOf (← cursor.memory.takeBytes size start)

def emit (kind : TokenKind) (literal : List Char) (start : Slice) (cursor : StoredCursor) :
    Attempt (Token × StoredCursor) := do
  return (⟨kind, String.ofList literal, ← cursor.spanFrom start⟩, cursor)

def emitSlice (kind : TokenKind) (start : Slice) (cursor : StoredCursor) :
    Attempt (Token × StoredCursor) := do
  cursor.emit kind (← cursor.sliceFrom start) start

def found : Except Missing Scanned → Attempt Scanned
  | .ok scanned => .ok scanned
  | .error _ => .error .nothingFound

/-- A block comment that is not closed is followed by what is left behind its last byte. -/
def blockBody (cs : List Char) : Attempt Scanned :=
  match Lexeme.closedBlock? cs with
  | some scanned => .ok scanned
  | none => do
    let (_, rest) ← cutAt (byteSize cs) cs
    return ⟨cs, rest⟩

def accept (scan : List Char → Attempt Scanned) (cursor : StoredCursor) :
    Attempt (List Char × StoredCursor) := do
  let scanned ← scan (← cursor.rest)
  return (scanned.text, ← cursor.advanceTo scanned.rest)

def scanRun (kind : TokenKind) (scan : List Char → Attempt Scanned) (start : Slice)
    (cursor : StoredCursor) : Attempt (Token × StoredCursor) := do
  let (text, cursor) ← cursor.accept scan
  cursor.emit kind text start

def scanWord (start : Slice) (cursor : StoredCursor) : Attempt (Token × StoredCursor) := do
  let (word, cursor) ← cursor.accept fun cs => found (Lexeme.word cs)
  let lowered := word.map Char.toLower
  match TokenKind.ofKeyword? lowered with
  | some kind => cursor.emit kind lowered start
  | none => cursor.emit .identifier word start

theorem size_lt_of_read? {cursor after : StoredCursor} {c : Char}
    (h : cursor.read? = .ok (some (c, after))) : after.ahead.size < cursor.ahead.size := by
  obtain ⟨text, htext, h⟩ := Attempt.bind_eq_ok_iff.mp h
  have hsize := Memory.byteSize_of_textOf htext
  cases text with
  | nil => cases h
  | cons d text =>
    obtain ⟨ahead, hahead, h⟩ := Attempt.bind_eq_ok_iff.mp h
    obtain ⟨_, -, hahead⟩ := Attempt.bind_eq_ok_iff.mp hahead
    obtain ⟨_, -, hahead⟩ := Attempt.bind_eq_ok_iff.mp hahead
    cases hahead
    cases h
    have hpos := c.utf8Size_pos
    rw [byteSize_cons] at hsize
    simp only
    omega

/-- The contents of a string up to its end. What has been read of them is cut out at every
character. -/
def quotedText (contents : Slice) (before : Option Char) (cursor : StoredCursor) :
    Attempt (List Char × StoredCursor) := do
  let text ← cursor.sliceFrom contents
  match _ : cursor.read? with
  | .error fault => .error fault
  | .ok none => return (text, cursor)
  | .ok (some (c, after)) =>
    if c = '"' ∧ before ≠ some '\\' then return (text, after)
    else after.quotedText contents (some c)
termination_by cursor.ahead.size
decreasing_by exact size_lt_of_read? ‹_›

def scanQuoted (start : Slice) (cursor : StoredCursor) : Attempt (Token × StoredCursor) := do
  let (text, cursor) ← cursor.quotedText cursor.ahead none
  cursor.emit .quotedString text start

def scanComment (start : Slice) (cursor : StoredCursor) : Attempt (Token × StoredCursor) := do
  match ← cursor.read? with
  | some ('/', cursor) => cursor.scanRun .comment (fun cs => .ok (Lexeme.lineBody cs)) start
  | some ('*', cursor) => cursor.scanRun .comment blockBody start
  | some (c, cursor) => cursor.unread c >>= emitSlice .illegal start
  | none => cursor.emitSlice .illegal start

def scanFrom (first : Char) (start : Slice) (cursor : StoredCursor) :
    Attempt (Token × StoredCursor) :=
  if isBlank first then
    cursor.unread first >>= scanRun .whitespace (fun cs => found (Lexeme.blanks cs)) start
  else if first.isAlpha then cursor.unread first >>= scanWord start
  else match first with
    | '"' => cursor.scanQuoted start
    | '/' => cursor.scanComment start
    | '$' =>
      cursor.unread first >>= scanRun .variableName (fun cs => found (Lexeme.variableName cs)) start
    | _ =>
      match TokenKind.ofPunctuation? first with
      | some kind => cursor.emit kind [first] start
      | none => cursor.emitSlice .illegal start

def nextToken (cursor : StoredCursor) : Attempt (Token × StoredCursor) := do
  match ← cursor.read? with
  | none => cursor.emit .endOfInput [] cursor.ahead
  | some (first, after) => after.scanFrom first cursor.ahead

def placed (address : Nat) (source : List Char) (p : Position) (undo : Option Slice) :
    StoredCursor := ⟨⟨address, source⟩, p.slice address, undo⟩

section Placed

open Position (In slice)

variable {address offset : Nat} {source w cs rest following : List Char} {c : Char}
  {undo : Option Slice} {kind : TokenKind} {literal text lexeme : List Char}

theorem rest_placed {p : Position} (h : p.In source) :
    (placed address source p undo).rest = .ok p.rest := h.textOf_slice address

theorem read?_placed_nil (h : In source ⟨offset, []⟩) :
    (placed address source ⟨offset, []⟩ undo).read? = .ok none := by
  rw [read?, rest_placed h]
  rfl

theorem read?_placed_cons (h : In source ⟨offset, c :: cs⟩) :
    (placed address source ⟨offset, c :: cs⟩ undo).read? =
      .ok (some (c, placed address source ⟨offset + c.utf8Size, cs⟩
        (some (slice address ⟨offset, c :: cs⟩)))) := by
  have hdrop := h.dropBytes (w := [c]) address
  rw [byteSize_cons, byteSize_nil, Nat.add_zero] at hdrop
  rw [read?, rest_placed h, Attempt.ok_bind]
  simp only [placed, List.cons_append, List.nil_append] at hdrop ⊢
  rw [hdrop]
  rfl

theorem unread_placed (h : In source ⟨offset, c :: cs⟩) :
    (placed address source ⟨offset + c.utf8Size, cs⟩
      (some (slice address ⟨offset, c :: cs⟩))).unread c =
      .ok (placed address source ⟨offset, c :: cs⟩ none) := by
  change ((placed address source ⟨offset, c :: cs⟩ none).read? >>= _) = _
  rw [read?_placed_cons h, Attempt.ok_bind]
  exact if_pos rfl

theorem advanceTo_placed (h : In source ⟨offset, w ++ rest⟩) :
    (placed address source ⟨offset, w ++ rest⟩ undo).advanceTo rest =
      .ok (placed address source ⟨offset + byteSize w, rest⟩ none) := by
  simp only [advanceTo, placed, Position.size_slice_append, subtract_add, Attempt.ok_bind,
    h.dropBytes]
  rfl

theorem emit_placed {p q : Position} : (placed address source q undo).emit kind literal
      (p.slice address) =
      .ok (⟨kind, String.ofList literal, ⟨p.offset, q.offset⟩⟩, placed address source q undo) := by
  simp [emit, spanFrom, placed, slice]

theorem sliceFrom_placed (h : In source ⟨offset, w ++ rest⟩) :
    (placed address source ⟨offset + byteSize w, rest⟩ undo).sliceFrom
      (slice address ⟨offset, w ++ rest⟩) = .ok w := by
  have hrest : (slice address ⟨offset + byteSize w, rest⟩).size = byteSize rest := rfl
  simp only [sliceFrom, placed, Position.size_slice_append, hrest, subtract_add, Attempt.ok_bind,
    h.takeBytes, h.textOf]

theorem accept_placed {scan : List Char → Attempt Scanned} (h : In source ⟨offset, w ++ rest⟩)
    (hs : scan (w ++ rest) = .ok ⟨text, rest⟩) :
    (placed address source ⟨offset, w ++ rest⟩ undo).accept scan =
      .ok (text, placed address source ⟨offset + byteSize w, rest⟩ none) := by
  rw [accept, rest_placed h, Attempt.ok_bind, hs, Attempt.ok_bind, advanceTo_placed h]
  rfl

variable (address source) in
def Reads (kind : TokenKind) (literal lexeme following : List Char) (offset : Nat)
    (outcome : Attempt (Token × StoredCursor)) : Prop :=
  ∃ undo, outcome =
    .ok (⟨kind, String.ofList literal, ⟨offset, offset + byteSize lexeme⟩⟩,
      placed address source ⟨offset + byteSize lexeme, following⟩ undo)

theorem reads_emit {start : Position} (hs : start.offset = offset) :
    Reads address source kind literal lexeme following offset
      ((placed address source ⟨offset + byteSize lexeme, following⟩ undo).emit kind literal
        (start.slice address)) := by
  refine ⟨undo, ?_⟩
  rw [emit_placed, hs]

theorem reads_emitSlice (h : In source ⟨offset, lexeme ++ following⟩) :
    Reads address source kind lexeme lexeme following offset
      ((placed address source ⟨offset + byteSize lexeme, following⟩ undo).emitSlice kind
        (slice address ⟨offset, lexeme ++ following⟩)) := by
  rw [emitSlice, sliceFrom_placed h]
  exact reads_emit rfl

theorem reads_scanRun {scan : List Char → Attempt Scanned} (front : List Char)
    {passed : List Char} (h : In source ⟨offset, front ++ (passed ++ following)⟩)
    (hs : scan (passed ++ following) = .ok ⟨literal, following⟩) :
    Reads address source kind literal (front ++ passed) following offset
      ((placed address source ⟨offset + byteSize front, passed ++ following⟩ undo).scanRun kind scan
        (slice address ⟨offset, front ++ (passed ++ following)⟩)) := by
  have hsize : offset + byteSize front + byteSize passed = offset + byteSize (front ++ passed) := by
    rw [byteSize_append, Nat.add_assoc]
  rw [scanRun, accept_placed h.advance hs, Attempt.ok_bind, hsize]
  exact reads_emit rfl

theorem reads_scanWord_keyword (h : In source ⟨offset, w ++ following⟩)
    (hs : Lexeme.word (w ++ following) = .ok ⟨w, following⟩)
    (hk : TokenKind.ofKeyword? (w.map Char.toLower) = some kind) :
    Reads address source kind (w.map Char.toLower) w following offset
      ((placed address source ⟨offset, w ++ following⟩ undo).scanWord
        (slice address ⟨offset, w ++ following⟩)) := by
  rw [scanWord, accept_placed h (congrArg found hs), Attempt.ok_bind]
  simp only [hk]
  exact reads_emit rfl

theorem reads_scanWord_identifier (h : In source ⟨offset, w ++ following⟩)
    (hs : Lexeme.word (w ++ following) = .ok ⟨w, following⟩)
    (hk : TokenKind.ofKeyword? (w.map Char.toLower) = none) :
    Reads address source .identifier w w following offset
      ((placed address source ⟨offset, w ++ following⟩ undo).scanWord
        (slice address ⟨offset, w ++ following⟩)) := by
  rw [scanWord, accept_placed h (congrArg found hs), Attempt.ok_bind]
  simp only [hk]
  exact reads_emit rfl

theorem quotedText_of_read?_none {cursor : StoredCursor} {contents : Slice} {before : Option Char}
    (hs : cursor.sliceFrom contents = .ok text) (hr : cursor.read? = .ok none) :
    cursor.quotedText contents before = .ok (text, cursor) := by
  rw [quotedText, hs, Attempt.ok_bind]
  split
  all_goals
    rename_i hread
    cases hr.symm.trans hread
  rfl

theorem quotedText_of_read? {cursor after : StoredCursor} {contents : Slice}
    {before : Option Char} (hs : cursor.sliceFrom contents = .ok text)
    (hr : cursor.read? = .ok (some (c, after))) :
    cursor.quotedText contents before =
      if c = '"' ∧ before ≠ some '\\' then .ok (text, after)
      else after.quotedText contents (some c) := by
  rw [quotedText, hs, Attempt.ok_bind]
  split
  all_goals
    rename_i hread
    cases hr.symm.trans hread
  rfl

variable (address undo) in
theorem quotedText_placed (read : List Char) (before : Option Char)
    (h : In source ⟨offset, read ++ cs⟩) :
    ∃ passed undo', cs = passed ++ (Lexeme.quotedBody before cs).rest ∧
      (placed address source ⟨offset + byteSize read, cs⟩ undo).quotedText
        (slice address ⟨offset, read ++ cs⟩) before =
      .ok (read ++ (Lexeme.quotedBody before cs).text,
        placed address source ⟨offset + byteSize read + byteSize passed,
          (Lexeme.quotedBody before cs).rest⟩ undo') := by
  induction cs generalizing read before undo with
  | nil =>
    refine ⟨[], undo, rfl, ?_⟩
    rw [quotedText_of_read?_none (sliceFrom_placed h) (read?_placed_nil h.advance)]
    simp [Lexeme.quotedBody]
  | cons c cs ih =>
    have hslice : sliceFrom _ (placed address source _ undo) = _ := sliceFrom_placed h
    have hstep := @quotedText_of_read? c _ _ _ _ before hslice (read?_placed_cons h.advance)
    by_cases hend : c = '"' ∧ before ≠ some '\\'
    · refine ⟨[c], some (slice address ⟨offset + byteSize read, c :: cs⟩), ?_, ?_⟩
      · rw [Lexeme.quotedBody, if_pos hend]
        rfl
      · rw [hstep, if_pos hend, Lexeme.quotedBody, if_pos hend, List.append_nil]
        rfl
    · have hread : read ++ c :: cs = read ++ [c] ++ cs := by
        rw [List.append_assoc]
        rfl
      have hsize : offset + byteSize read + c.utf8Size = offset + byteSize (read ++ [c]) := by
        simp [Nat.add_assoc]
      rw [hread] at h
      obtain ⟨passed, undo', hcs, htext⟩ :=
        ih (some (slice address ⟨offset + byteSize read, c :: cs⟩)) _ (some c) h
      refine ⟨c :: passed, undo', ?_, ?_⟩
      · rw [Lexeme.quotedBody, if_neg hend]
        exact congrArg (c :: ·) hcs
      · rw [hstep, if_neg hend, hread, hsize, htext, Lexeme.quotedBody, if_neg hend]
        simp [Nat.add_assoc]

theorem reads_scanQuoted {passed : List Char} (h : In source ⟨offset, '"' :: (passed ++ following)⟩)
    (hs : Lexeme.quotedBody none (passed ++ following) = ⟨literal, following⟩) :
    Reads address source .quotedString literal ('"' :: passed) following offset
      ((placed address source ⟨offset + '"'.utf8Size, passed ++ following⟩ undo).scanQuoted
        (slice address ⟨offset, '"' :: (passed ++ following)⟩)) := by
  have hcontents : In source ⟨offset + '"'.utf8Size, [] ++ (passed ++ following)⟩ :=
    h.tail
  obtain ⟨passed', undo', hcs, htext⟩ := quotedText_placed address undo [] none hcontents
  rw [hs] at hcs htext
  obtain rfl := List.append_cancel_right hcs
  have hsize : offset + '"'.utf8Size + byteSize [] + byteSize passed =
      offset + byteSize ('"' :: passed) := by
    simp [Nat.add_assoc]
  have hopened : (placed address source ⟨offset + '"'.utf8Size, passed ++ following⟩ undo).quotedText
      (slice address ⟨offset + '"'.utf8Size, passed ++ following⟩) none =
      .ok (literal, placed address source ⟨offset + byteSize ('"' :: passed), following⟩ undo') := by
    rw [← hsize]
    exact htext
  change Reads _ _ _ _ _ _ _ (quotedText (slice address _) _ _ >>= _)
  rw [hopened]
  exact reads_emit rfl

theorem closedBlock?_getD (cs : List Char) :
    (Lexeme.closedBlock? cs).getD ⟨cs, []⟩ = Lexeme.blockBody cs := by
  fun_induction Lexeme.blockBody cs with
  | case1 => rfl
  | case2 c => rfl
  | case3 c d cs h => rw [Lexeme.closedBlock?, if_pos h, Option.getD_some]
  | case4 c d cs h tail ih =>
    rw [Lexeme.closedBlock?, if_neg h]
    cases hclosed : Lexeme.closedBlock? (d :: cs) with
    | none =>
      rw [hclosed] at ih
      simp [tail, ← ih]
    | some scanned =>
      rw [hclosed] at ih
      simp [tail, ← ih]

theorem blockBody_eq_ok (cs : List Char) : blockBody cs = .ok (Lexeme.blockBody cs) := by
  rw [← closedBlock?_getD, blockBody]
  cases Lexeme.closedBlock? cs with
  | some scanned => rfl
  | none =>
    have hcut := cutAt_append cs []
    rw [List.append_nil] at hcut
    simp only [hcut, Attempt.ok_bind]
    rfl

theorem reads_scanRun_body {body : List Char → Scanned} (front : List Char) {passed : List Char}
    (h : In source ⟨offset, front ++ (passed ++ following)⟩)
    (hs : body (passed ++ following) = ⟨literal, following⟩) :
    Reads address source kind literal (front ++ passed) following offset
      ((placed address source ⟨offset + byteSize front, passed ++ following⟩ undo).scanRun kind
        (fun cs => .ok (body cs)) (slice address ⟨offset, front ++ (passed ++ following)⟩)) := by
  apply reads_scanRun front h
  rw [hs]

theorem reads_scanComment_line {passed : List Char}
    (h : In source ⟨offset, ['/', '/'] ++ (passed ++ following)⟩)
    (hs : Lexeme.lineBody (passed ++ following) = ⟨literal, following⟩) :
    Reads address source .comment literal (['/', '/'] ++ passed) following offset
      ((placed address source ⟨offset + '/'.utf8Size, '/' :: (passed ++ following)⟩ undo).scanComment
        (slice address ⟨offset, ['/', '/'] ++ (passed ++ following)⟩)) := by
  have hnext : In source ⟨offset + '/'.utf8Size, '/' :: (passed ++ following)⟩ := h.tail
  rw [scanComment, read?_placed_cons hnext]
  exact reads_scanRun_body ['/', '/'] h hs

theorem reads_scanComment_block {passed : List Char}
    (h : In source ⟨offset, ['/', '*'] ++ (passed ++ following)⟩)
    (hs : Lexeme.blockBody (passed ++ following) = ⟨literal, following⟩) :
    Reads address source .comment literal (['/', '*'] ++ passed) following offset
      ((placed address source ⟨offset + '/'.utf8Size, '*' :: (passed ++ following)⟩ undo).scanComment
        (slice address ⟨offset, ['/', '*'] ++ (passed ++ following)⟩)) := by
  have hnext : In source ⟨offset + '/'.utf8Size, '*' :: (passed ++ following)⟩ := h.tail
  rw [scanComment, read?_placed_cons hnext, funext blockBody_eq_ok]
  exact reads_scanRun_body ['/', '*'] h hs

theorem reads_scanComment_alone (h : In source ⟨offset, '/' :: following⟩)
    (hstop : Stops (fun d => d == '/' || d == '*') following) :
    Reads address source .illegal ['/'] ['/'] following offset
      ((placed address source ⟨offset + '/'.utf8Size, following⟩ undo).scanComment
        (slice address ⟨offset, '/' :: following⟩)) := by
  have hslice : In source ⟨offset, ['/'] ++ following⟩ := h
  cases following with
  | nil =>
    rw [scanComment, read?_placed_nil h.tail]
    exact reads_emitSlice hslice
  | cons d following =>
    obtain ⟨hslash, hstar⟩ : d ≠ '/' ∧ d ≠ '*' := by simpa using stops_cons.mp hstop
    rw [scanComment, read?_placed_cons h.tail, Attempt.ok_bind]
    simp only [unread_placed h.tail, Attempt.ok_bind]
    exact reads_emitSlice hslice

variable (address) in
theorem reads_scanFrom {first : Char} {tail : List Char}
    (h : In source ⟨offset, lexeme ++ following⟩) (hl : lexeme = first :: tail)
    (hlexeme : IsLexeme kind literal lexeme following) :
    Reads address source kind literal lexeme following offset
      ((placed address source ⟨offset + first.utf8Size, tail ++ following⟩
        (some (slice address ⟨offset, lexeme ++ following⟩))).scanFrom first
        (slice address ⟨offset, lexeme ++ following⟩)) := by
  have hback : (placed address source ⟨offset + first.utf8Size, tail ++ following⟩
      (some (slice address ⟨offset, lexeme ++ following⟩))).unread first =
      .ok (placed address source ⟨offset, lexeme ++ following⟩ none) := by
    rw [hl] at h ⊢
    exact unread_placed h
  subst hl
  cases hlexeme.foundBy with
  | blanks hb hs =>
    simp only [scanFrom, hb, if_true, hback]
    exact reads_scanRun [] h (congrArg found hs)
  | keyword ha hs hk =>
    simp only [scanFrom, Lexer.isBlank_eq_false_of_isAlpha ha, ha, Bool.false_eq_true, if_true,
      if_false, hback]
    exact reads_scanWord_keyword h hs hk
  | identifier ha hs hk =>
    simp only [scanFrom, Lexer.isBlank_eq_false_of_isAlpha ha, ha, Bool.false_eq_true, if_true,
      if_false, hback]
    exact reads_scanWord_identifier h hs hk
  | variableName hs =>
    change Reads _ _ _ _ _ _ _ (unread '$' _ >>= _)
    rw [hback]
    exact reads_scanRun [] h (congrArg found hs)
  | quotedBody hs =>
    exact reads_scanQuoted h hs
  | lineBody hs =>
    exact reads_scanComment_line h hs
  | blockBody hs =>
    exact reads_scanComment_block h hs
  | punctuation hmark =>
    have hscan : scanFrom first = emit kind [first] := by
      cases kind <;> cases hmark <;> rfl
    rw [hscan]
    exact reads_emit rfl
  | slash hstop =>
    exact reads_scanComment_alone h hstop
  | illegal hblank halpha hquote hdollar hslash hmark =>
    have hscan : scanFrom first = emitSlice .illegal := by
      funext start cursor
      simp [scanFrom, hblank, halpha, hmark]
    rw [hscan]
    exact reads_emitSlice h

variable (address undo) in
theorem reads_nextToken (h : In source ⟨offset, lexeme ++ following⟩)
    (hlexeme : IsLexeme kind literal lexeme following) :
    Reads address source kind literal lexeme following offset
      (placed address source ⟨offset, lexeme ++ following⟩ undo).nextToken := by
  obtain ⟨first, tail, hl⟩ := List.exists_cons_of_ne_nil hlexeme.ne_nil
  have hscan := reads_scanFrom address h hl hlexeme
  rw [hl, List.cons_append] at h hscan ⊢
  rw [nextToken, read?_placed_cons h]
  exact hscan

theorem nextToken_placed_nil (h : In source ⟨offset, []⟩) :
    (placed address source ⟨offset, []⟩ undo).nextToken =
      .ok (.endAt offset, placed address source ⟨offset, []⟩ undo) := by
  rw [nextToken, read?_placed_nil h, Attempt.ok_bind]
  exact emit_placed

theorem nextToken_placed {lexer : Lexer} (h : lexer.cursor.pos.In source) (address : Nat)
    (undo : Option Slice) :
    lexer.nextToken.2.cursor.pos.In source ∧
      ∃ undo', (placed address source lexer.cursor.pos undo).nextToken =
        .ok (lexer.nextToken.1, placed address source lexer.nextToken.2.cursor.pos undo') := by
  generalize hp : lexer.cursor.pos = p at h
  obtain ⟨offset, text⟩ := p
  cases text with
  | nil =>
    have hr : lexer.cursor.rest = [] := congrArg Position.rest hp
    rw [Lexer.nextToken_of_rest_nil hr, hp]
    exact ⟨h, undo, nextToken_placed_nil h⟩
  | cons c cs =>
    obtain ⟨kind, literal, lexeme, following, hlexeme, hcs⟩ := IsLexeme.exists_of_cons c cs
    rw [hcs] at h hp ⊢
    have hr : lexer.cursor.rest = lexeme ++ following := congrArg Position.rest hp
    obtain ⟨htoken, hafter⟩ := Lexer.delivers_nextToken hr hlexeme
    rw [hp] at htoken hafter
    simp only at htoken hafter
    rw [htoken, hafter]
    exact ⟨h.advance, reads_nextToken address undo h hlexeme⟩

end Placed

end StoredCursor

end SignatureRules
