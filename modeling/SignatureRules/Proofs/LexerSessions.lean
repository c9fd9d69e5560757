import SignatureRules.Proofs.Tokenization

namespace SignatureRules

inductive Lexer.Call
  | nextToken
  | next
deriving DecidableEq, Repr

def Lexer.reply (lexer : Lexer) : Call → Option Token × Lexer
  | .nextToken =>
    let (token, after) := lexer.nextToken
    (some token, after)
  | .next =>
    match lexer.next? with
    | some (token, after) => (some token, after)
    | none => (none, lexer)

structure Lexer.Answered where
  call : Call
  token : Option Token
deriving DecidableEq, Repr

/-- A lexer and the calls that led to it, those before it was cloned included. -/
structure DrivenLexer where
  lexer : Lexer
  history : List Lexer.Answered
deriving DecidableEq, Repr

namespace DrivenLexer

def make (driven : DrivenLexer) (call : Lexer.Call) : DrivenLexer where
  lexer := (driven.lexer.reply call).2
  history := driven.history ++ [⟨call, (driven.lexer.reply call).1⟩]

def delivered (driven : DrivenLexer) : Nat := driven.history.countP (·.token.isSome)

def Ended (driven : DrivenLexer) : Prop :=
  ∃ token, ⟨.next, some token⟩ ∈ driven.history ∧ token.kind = .endOfInput

end DrivenLexer

inductive SessionAction
  | call (call : Lexer.Call)
  | clone
  | returnTo (index : Nat)
deriving DecidableEq, Repr

structure LexerSession where
  current : DrivenLexer
  clones : List DrivenLexer
deriving DecidableEq, Repr

namespace LexerSession

def ofSource (source : String) : LexerSession := ⟨⟨.ofSource source, []⟩, []⟩

def perform (session : LexerSession) : SessionAction → LexerSession
  | .call call => { session with current := session.current.make call }
  | .clone => { session with clones := session.clones ++ [session.current] }
  | .returnTo index => { session with current := session.clones.getD index session.current }

def performAll (session : LexerSession) (actions : List SessionAction) : LexerSession :=
  actions.foldl perform session

end LexerSession

variable {tokens : List Token} {token : Token} {start : Position} {lexer : Lexer}

theorem Lexed.ne_nil (h : Lexed start tokens) : tokens ≠ [] := by
  cases h <;> exact List.cons_ne_nil _ _

theorem Lexed.rest_eq_nil (h : Lexed start [token]) : start.rest = [] := by
  cases h with
  | done => rfl
  | cons _ hrest => cases hrest

theorem Lexed.nextToken_drop {index : Nat}
    (h : Lexed lexer.cursor.pos (tokens.drop (min index (tokens.length - 1)))) :
    tokens[min index (tokens.length - 1)]? = some lexer.nextToken.1 ∧
      Lexed lexer.nextToken.2.cursor.pos (tokens.drop (min (index + 1) (tokens.length - 1))) := by
  obtain ⟨rest, hdrop, hnext, hend⟩ := h.nextToken
  have hhead : tokens[min index (tokens.length - 1)]? = some lexer.nextToken.1 := by
    rw [← List.head?_drop, hdrop, List.head?_cons]
  refine ⟨hhead, ?_⟩
  have hlength := congrArg List.length hdrop
  rw [List.length_drop, List.length_cons] at hlength
  by_cases hk : lexer.nextToken.1.kind = .endOfInput
  · obtain rfl := hend hk
    rw [hdrop] at h
    have hlast : min (index + 1) (tokens.length - 1) = min index (tokens.length - 1) := by
      simp only [List.length_nil] at hlength
      omega
    rw [hlast, hdrop, Lexer.nextToken_of_rest_nil h.rest_eq_nil]
    rw [Lexer.nextToken_of_rest_nil h.rest_eq_nil] at h
    exact h
  · have hrest := hnext hk
    have hpos := List.length_pos_iff.mpr hrest.ne_nil
    have hmiddle : min (index + 1) (tokens.length - 1) = min index (tokens.length - 1) + 1 := by
      omega
    rw [hmiddle, ← List.drop_drop, hdrop]
    exact hrest

namespace DrivenLexer

variable {driven : DrivenLexer} {call : Lexer.Call}

structure ReadsIn (tokens : List Token) (driven : DrivenLexer) : Prop where
  ahead : Lexed driven.lexer.cursor.pos (tokens.drop (min driven.delivered (tokens.length - 1)))
  closed_iff : driven.lexer.closed = true ↔ driven.Ended

theorem delivered_make (driven : DrivenLexer) (call : Lexer.Call) :
    (driven.make call).delivered =
      driven.delivered + if (driven.lexer.reply call).1.isSome then 1 else 0 := by
  simp [delivered, make, List.countP_append, List.countP_cons]

theorem ended_make : (driven.make call).Ended ↔ driven.Ended ∨ call = .next ∧
    ∃ token, (driven.lexer.reply call).1 = some token ∧ token.kind = .endOfInput := by
  simp only [Ended, make, List.mem_append, List.mem_singleton, Lexer.Answered.mk.injEq]
  constructor
  · rintro ⟨token, hm | ⟨rfl, htoken⟩, hk⟩
    · exact .inl ⟨token, hm, hk⟩
    · exact .inr ⟨rfl, token, htoken.symm, hk⟩
  · rintro (⟨token, hm, hk⟩ | ⟨rfl, token, htoken, hk⟩)
    · exact ⟨token, .inl hm, hk⟩
    · exact ⟨token, .inr ⟨rfl, htoken.symm⟩, hk⟩

theorem reply_next_of_closed (h : lexer.closed = true) : lexer.reply .next = (none, lexer) := by
  simp [Lexer.reply, Lexer.next?, h]

theorem reply_next_of_open (h : lexer.closed = false) : lexer.reply .next =
    (some lexer.nextToken.1,
      { lexer.nextToken.2 with closed := lexer.nextToken.1.kind = .endOfInput }) := by
  simp [Lexer.reply, Lexer.next?, h]

theorem ReadsIn.make (h : driven.ReadsIn tokens) (call : Lexer.Call) :
    (driven.make call).ReadsIn tokens := by
  obtain ⟨-, hnext⟩ := h.ahead.nextToken_drop
  cases call with
  | nextToken =>
    refine ⟨?_, ?_⟩
    · rw [delivered_make]
      exact hnext
    · rw [ended_make, ← h.closed_iff]
      simp [DrivenLexer.make, Lexer.reply, Lexer.nextToken]
  | next =>
    cases hc : driven.lexer.closed with
    | true =>
      have hreply := reply_next_of_closed hc
      refine ⟨?_, ?_⟩
      · rw [delivered_make, DrivenLexer.make, hreply]
        exact h.ahead
      · rw [ended_make, ← h.closed_iff]
        simp [DrivenLexer.make, hreply]
    | false =>
      have hreply := reply_next_of_open hc
      refine ⟨?_, ?_⟩
      · rw [delivered_make, DrivenLexer.make, hreply]
        exact hnext
      · rw [ended_make, ← h.closed_iff]
        simp [DrivenLexer.make, hreply, hc]

end DrivenLexer

namespace LexerSession

variable {session : LexerSession}

def AllReadIn (tokens : List Token) (session : LexerSession) : Prop :=
  session.current.ReadsIn tokens ∧ ∀ driven ∈ session.clones, driven.ReadsIn tokens

theorem allReadIn_ofSource (source : String) :
    (ofSource source).AllReadIn (tokenize source) := by
  refine ⟨⟨?_, ?_⟩, by simp [ofSource]⟩
  · rw [show (ofSource source).current.delivered = 0 from rfl, Nat.zero_min, List.drop_zero]
    exact lexed_tokenize source
  · simp [ofSource, Lexer.ofSource, DrivenLexer.Ended]

theorem AllReadIn.perform (h : session.AllReadIn tokens) (action : SessionAction) :
    (session.perform action).AllReadIn tokens := by
  obtain ⟨hcurrent, hclones⟩ := h
  cases action with
  | call call => exact ⟨hcurrent.make call, hclones⟩
  | clone =>
    exact ⟨hcurrent, List.forall_mem_append.mpr ⟨hclones, List.forall_mem_singleton.mpr hcurrent⟩⟩
  | returnTo index =>
    refine ⟨?_, hclones⟩
    rw [LexerSession.perform, List.getD_eq_getElem?_getD]
    cases hclone : session.clones[index]? with
    | none => exact hcurrent
    | some driven => exact hclones driven (List.mem_of_getElem? hclone)

theorem AllReadIn.performAll (h : session.AllReadIn tokens) (actions : List SessionAction) :
    (session.performAll actions).AllReadIn tokens := by
  induction actions generalizing session with
  | nil => exact h
  | cons action actions ih => exact ih (h.perform action)

end LexerSession

/-- After any session, a call for the next token of a stream that has ended gets none and changes
nothing. Any other call gets the token of the source whose index is the number of tokens delivered
before it, or the last one. -/
theorem session_reads_tokens (source : String) (actions : List SessionAction)
    (call : Lexer.Call) :
    let driven := ((LexerSession.ofSource source).performAll actions).current
    let tokens := tokenize source
    (call = .next ∧ driven.Ended) ∧ driven.lexer.reply call = (none, driven.lexer) ∨
      ¬ (call = .next ∧ driven.Ended) ∧
        ∃ token, tokens[min driven.delivered (tokens.length - 1)]? = some token ∧
          (driven.lexer.reply call).1 = some token := by
  intro driven tokens
  obtain ⟨h, -⟩ := (LexerSession.allReadIn_ofSource source).performAll actions
  obtain ⟨htoken, -⟩ := h.ahead.nextToken_drop
  by_cases hc : call = .next ∧ driven.Ended
  · obtain ⟨rfl, hended⟩ := hc
    exact .inl ⟨⟨rfl, hended⟩, DrivenLexer.reply_next_of_closed (h.closed_iff.mpr hended)⟩
  · refine .inr ⟨hc, _, htoken, ?_⟩
    cases call with
    | nextToken => rfl
    | next =>
      have hopen : driven.lexer.closed = false := by
        apply Bool.eq_false_iff.mpr
        exact fun hclosed => hc ⟨rfl, h.closed_iff.mp hclosed⟩
      rw [DrivenLexer.reply_next_of_open hopen]

end SignatureRules
