import Mathlib.Logic.Relation
import SignatureRules.Proofs.ParserRun

/-! No token is lost, read twice or put out of order between the lexer and the parser. The parser's
step is run once more with its calls recorded, and a ledger of the calls balances at every point. -/

namespace SignatureRules

/-- What a parser asks of its reader, with the answer and with the tokens that the lexer was asked
for meanwhile. -/
inductive Request
  | next (fetched : List Token) (token : Token)
  | putBack (token : Token)
deriving DecidableEq, Repr

structure Recording where
  reader : TokenReader
  requests : List Request

def recordedFetch (lexer : Lexer) : StateM (List Token) (Token × Lexer) := do
  modify (· ++ [lexer.nextToken.1])
  return lexer.nextToken

instance : TokenAccess (StateM Recording) where
  next recording :=
    let ((token, reader), fetched) := (recording.reader.nextBy recordedFetch).run []
    (token, ⟨reader, recording.requests ++ [.next fetched token]⟩)
  putBack token recording :=
    ((), ⟨recording.reader.putBack token, recording.requests ++ [.putBack token]⟩)

namespace Parser

def Reaches (options : ParseOptions) : Parser → Parser → Prop :=
  Relation.ReflTransGen fun before after => before.step options = .running after

def recordedStep (options : ParseOptions) (parser : Parser) : List Request × Progress :=
  let (outcome, recording) :=
    (parser.state.step options : StateM Recording _).run ⟨parser.reader, []⟩
  (recording.requests, .ofStep (outcome, recording.reader))

end Parser

namespace TokenReader

def fetched (reader : TokenReader) : List Token :=
  match reader.buffer with
  | some _ => []
  | none => [reader.lexer.nextToken.1]

def nextRequest (reader : TokenReader) : Request := .next reader.fetched reader.next.1

theorem next_recording (reader : TokenReader) (requests : List Request) :
    (TokenAccess.next : StateM Recording Token).run ⟨reader, requests⟩ =
      (reader.next.1, ⟨reader.next.2, requests ++ [reader.nextRequest]⟩) := by
  obtain ⟨lexer, _ | token⟩ := reader <;> rfl

end TokenReader

namespace Parser

variable {options : ParseOptions} {parser after : Parser}

theorem recordedStep_eq (options : ParseOptions) (parser : Parser) :
    parser.recordedStep options =
      let (token, reader) := parser.reader.next
      match parser.allowance.after? token.kind with
      | some allowance =>
        ([parser.reader.nextRequest], .running { parser with reader, allowance })
      | none =>
        match parser.goal.judge options parser.rule token with
        | .take goal rule =>
          ([parser.reader.nextRequest], .running ⟨reader, goal, goal.allowance, rule⟩)
        | .putBack goal =>
          ([parser.reader.nextRequest, .putBack token],
            .running ⟨reader.putBack token, goal, goal.allowance, parser.rule⟩)
        | .accept => ([parser.reader.nextRequest], .ended ⟨.ok parser.rule, token⟩)
        | .reject error => ([parser.reader.nextRequest], .ended ⟨.error error, token⟩) := by
  have hrun : (parser.state.step options : StateM Recording _).run ⟨parser.reader, []⟩ =
      (parser.state.judge options parser.reader.next.1 : StateM Recording _).run
        ⟨parser.reader.next.2, [parser.reader.nextRequest]⟩ := by
    rw [ParserState.step, StateT.run_bind, TokenReader.next_recording]
    rfl
  rw [recordedStep, hrun]
  simp only [ParserState.judge, state]
  cases parser.allowance.after? parser.reader.next.1.kind with
  | some allowance => rfl
  | none => cases parser.goal.judge options parser.rule parser.reader.next.1 <;> rfl

theorem snd_recordedStep (options : ParseOptions) (parser : Parser) :
    (parser.recordedStep options).2 = parser.step options := by
  simp only [recordedStep_eq, step_eq]
  cases parser.allowance.after? parser.reader.next.1.kind with
  | some allowance => rfl
  | none => cases parser.goal.judge options parser.rule parser.reader.next.1 <;> rfl

theorem step_of_recordedStep {requests : List Request} {progress : Progress}
    (h : parser.recordedStep options = (requests, progress)) : parser.step options = progress := by
  rw [← snd_recordedStep, h]

theorem recordedStep_of_step {progress : Progress} (h : parser.step options = progress) :
    parser.recordedStep options = ((parser.recordedStep options).1, progress) := by
  rw [← h, ← snd_recordedStep]

theorem requests_of_running {requests : List Request}
    (h : parser.recordedStep options = (requests, .running after)) :
    requests = [parser.reader.nextRequest] ∧ after.reader = parser.reader.next.2 ∧
        parser.reader.next.1.kind ≠ .endOfInput ∨
      requests = [parser.reader.nextRequest, .putBack parser.reader.next.1] ∧
        after.reader = parser.reader.next.2.putBack parser.reader.next.1 := by
  have hmoves := moves_of_step (step_of_recordedStep h)
  rw [recordedStep_eq] at h
  cases hmoves with
  | pass ha =>
    simp only [ha] at h
    cases h
    exact .inl ⟨rfl, rfl, kind_ne_of_after? ha⟩
  | take ha hj =>
    simp only [ha, hj] at h
    cases h
    exact .inl ⟨rfl, rfl, Goal.kind_ne_of_judge_take hj⟩
  | putBack ha hj =>
    simp only [ha, hj] at h
    cases h
    exact .inr ⟨rfl, rfl⟩

theorem requests_of_ended {requests : List Request} {ending : Ending}
    (h : parser.recordedStep options = (requests, .ended ending)) :
    requests = [parser.reader.nextRequest] ∧ ending.token = parser.reader.next.1 := by
  have hends := ends_of_step (step_of_recordedStep h)
  rw [recordedStep_eq] at h
  cases hends with
  | accept ha hj | reject ha hj =>
    simp only [ha, hj] at h
    cases h
    exact ⟨rfl, rfl⟩

theorem reader_of_step (h : parser.step options = .running after) :
    after.reader = parser.reader.next.2 ∧ parser.reader.next.1.kind ≠ .endOfInput ∨
      after.reader = parser.reader.next.2.putBack parser.reader.next.1 := by
  cases moves_of_step h with
  | pass ha => exact .inl ⟨rfl, kind_ne_of_after? ha⟩
  | take _ hj => exact .inl ⟨rfl, Goal.kind_ne_of_judge_take hj⟩
  | putBack => exact .inr rfl

def recordedRun (options : ParseOptions) (parser : Parser) : List Request × Ending :=
  match _ : parser.recordedStep options with
  | (requests, .running after) =>
    let (more, ending) := after.recordedRun options
    (requests ++ more, ending)
  | (requests, .ended ending) => (requests, ending)
termination_by parser.size
decreasing_by exact size_lt_of_step (step_of_recordedStep ‹_›)

theorem recordedRun_of_running {requests : List Request}
    (h : parser.recordedStep options = (requests, .running after)) :
    parser.recordedRun options =
      (requests ++ (after.recordedRun options).1, (after.recordedRun options).2) := by
  rw [recordedRun]
  split
  · rename_i hstep
    cases h.symm.trans hstep
    rfl
  · rename_i hstep
    cases h.symm.trans hstep

theorem recordedRun_of_ended {requests : List Request} {ending : Ending}
    (h : parser.recordedStep options = (requests, .ended ending)) :
    parser.recordedRun options = (requests, ending) := by
  rw [recordedRun]
  split
  · rename_i hstep
    cases h.symm.trans hstep
  · rename_i hstep
    cases h.symm.trans hstep
    rfl

theorem snd_recordedRun (options : ParseOptions) (parser : Parser) :
    (parser.recordedRun options).2 = parser.run options := by
  fun_induction run options parser with
  | case1 parser after hstep ih => rw [recordedRun_of_running (recordedStep_of_step hstep), ih]
  | case2 parser ending hstep => rw [recordedRun_of_ended (recordedStep_of_step hstep)]

end Parser

/-- A reader, the tokens it has fetched from its lexer, and those that are consumed and not put
back. -/
structure Ledger where
  reader : TokenReader
  fetched : List Token
  consumed : List Token
deriving DecidableEq, Repr

namespace Ledger

def ofSource (source : String) : Ledger := ⟨.ofSource source, [], []⟩

def serve (ledger : Ledger) : Request → Ledger
  | .next fetched token =>
    ⟨ledger.reader.next.2, ledger.fetched ++ fetched, ledger.consumed ++ [token]⟩
  | .putBack token => ⟨ledger.reader.putBack token, ledger.fetched, ledger.consumed.dropLast⟩

def serveAll (ledger : Ledger) (requests : List Request) : Ledger := requests.foldl serve ledger

structure Balances (tokens : List Token) (ledger : Ledger) : Prop where
  fetched_in_front : ledger.fetched <+: tokens
  consumed_held : ledger.consumed ++ ledger.reader.buffer.toList = ledger.fetched

/-- Nothing is fetched after the end of the input, and a token is put back only if it is the last
consumed and no other is held. -/
def Permits (ledger : Ledger) : Request → Prop
  | .next fetched _ => ∀ token ∈ (ledger.fetched ++ fetched).dropLast, token.kind ≠ .endOfInput
  | .putBack token => ledger.reader.buffer = none ∧ ledger.consumed.getLast? = some token

def Follows (tokens : List Token) (ledger : Ledger) : List Request → Prop
  | [] => ledger.Balances tokens
  | request :: requests =>
    ledger.Balances tokens ∧ ledger.Permits request ∧ (ledger.serve request).Follows tokens requests

variable {tokens ahead : List Token} {ledger : Ledger} {past requests : List Request}
  {request : Request}

theorem serveAll_append (ledger : Ledger) (front back : List Request) :
    ledger.serveAll (front ++ back) = (ledger.serveAll front).serveAll back :=
  List.foldl_append

theorem Follows.balances (h : ledger.Follows tokens requests) (hp : past <+: requests) :
    (ledger.serveAll past).Balances tokens := by
  induction past generalizing ledger requests with
  | nil =>
    cases requests with
    | nil => exact h
    | cons request requests => exact h.1
  | cons request past ih =>
    obtain ⟨rest, rfl⟩ := hp
    exact ih h.2.2 (List.prefix_append past rest)

theorem Follows.permits (h : ledger.Follows tokens requests)
    (hp : past ++ [request] <+: requests) : (ledger.serveAll past).Permits request := by
  induction past generalizing ledger requests with
  | nil =>
    obtain ⟨rest, rfl⟩ := hp
    exact h.2.1
  | cons first past ih =>
    obtain ⟨rest, rfl⟩ := hp
    exact ih h.2.2 (List.prefix_append _ rest)

theorem Follows.append {front back : List Request} (h : ledger.Follows tokens front)
    (hb : (ledger.serveAll front).Follows tokens back) :
    ledger.Follows tokens (front ++ back) := by
  induction front generalizing ledger with
  | nil => exact hb
  | cons request front ih => exact ⟨h.1, h.2.1, ih h.2.2 hb⟩

/-- Between two steps the tokens ahead are those that are not consumed, and the end of the input is
still among them. -/
structure Settled (tokens ahead : List Token) (ledger : Ledger) : Prop where
  supplies : ledger.reader.Supplies ahead
  consumed_ahead : ledger.consumed ++ ahead = tokens
  consumed_held : ledger.consumed ++ ledger.reader.buffer.toList = ledger.fetched
  not_ended : ∀ token ∈ ledger.consumed, token.kind ≠ .endOfInput

end Ledger

theorem TokenReader.Supplies.held_in_front {reader : TokenReader} {tokens : List Token}
    (h : reader.Supplies tokens) : reader.buffer.toList <+: tokens := by
  cases h with
  | unread => exact List.nil_prefix
  | held | heldEnd => exact List.cons_prefix_cons.mpr ⟨rfl, List.nil_prefix⟩

theorem TokenReader.buffer_next (reader : TokenReader) : reader.next.2.buffer = none := by
  rw [next_eq]
  split
  · rfl
  · assumption

namespace Ledger

variable {tokens ahead : List Token} {ledger : Ledger}

theorem Settled.balances (h : ledger.Settled tokens ahead) : ledger.Balances tokens where
  fetched_in_front := by
    rw [← h.consumed_held, ← h.consumed_ahead]
    exact (List.prefix_append_right_inj _).mpr h.supplies.held_in_front
  consumed_held := h.consumed_held

theorem consumed_next (ledger : Ledger) :
    (ledger.serve ledger.reader.nextRequest).consumed =
      ledger.consumed ++ [ledger.reader.next.1] := rfl

theorem Settled.fetched_next (h : ledger.Settled tokens ahead) :
    (ledger.serve ledger.reader.nextRequest).fetched =
      ledger.consumed ++ [ledger.reader.next.1] := by
  obtain ⟨⟨lexer, _ | token⟩, fetched, consumed⟩ := ledger
  · obtain rfl : consumed = fetched := by simpa using h.consumed_held
    rfl
  · obtain rfl : consumed ++ [token] = fetched := h.consumed_held
    exact List.append_nil _

theorem Settled.permits_next (h : ledger.Settled tokens ahead) :
    ledger.Permits ledger.reader.nextRequest := by
  intro token ht
  have hfetched : ledger.fetched ++ ledger.reader.fetched =
      ledger.consumed ++ [ledger.reader.next.1] := h.fetched_next
  rw [hfetched, List.dropLast_concat] at ht
  exact h.not_ended token ht

theorem Settled.balances_next (h : ledger.Settled tokens ahead) :
    (ledger.serve ledger.reader.nextRequest).Balances tokens where
  fetched_in_front := by
    obtain ⟨rest, hahead, -⟩ := h.supplies.next
    rw [h.fetched_next, ← h.consumed_ahead, hahead]
    exact (List.prefix_append_right_inj _).mpr (List.cons_prefix_cons.mpr ⟨rfl, List.nil_prefix⟩)
  consumed_held := by
    have hbuffer : (ledger.serve ledger.reader.nextRequest).reader.buffer = none :=
      ledger.reader.buffer_next
    rw [h.fetched_next, consumed_next, hbuffer, Option.toList_none, List.append_nil]

theorem Settled.next (h : ledger.Settled tokens ahead)
    (hk : ledger.reader.next.1.kind ≠ .endOfInput) :
    ∃ rest, (ledger.serve ledger.reader.nextRequest).Settled tokens rest := by
  obtain ⟨rest, hahead, hrest, -⟩ := h.supplies.next
  refine ⟨rest, hrest hk, ?_, h.balances_next.consumed_held, ?_⟩
  · rw [consumed_next, List.append_assoc, List.singleton_append, ← hahead, h.consumed_ahead]
  · intro token ht
    rcases List.mem_append.mp ht with ht | ht
    · exact h.not_ended token ht
    · rwa [List.mem_singleton.mp ht]

theorem permits_putBack (ledger : Ledger) :
    (ledger.serve ledger.reader.nextRequest).Permits (.putBack ledger.reader.next.1) :=
  ⟨ledger.reader.buffer_next, List.getLast?_concat⟩

theorem Settled.putBack (h : ledger.Settled tokens ahead) :
    ((ledger.serve ledger.reader.nextRequest).serve
      (.putBack ledger.reader.next.1)).Settled tokens ahead := by
  obtain ⟨rest, -, -, hback⟩ := h.supplies.next
  have hconsumed : ((ledger.serve ledger.reader.nextRequest).serve
      (.putBack ledger.reader.next.1)).consumed = ledger.consumed := List.dropLast_concat
  refine ⟨hback, ?_, ?_, ?_⟩
  · rw [hconsumed, h.consumed_ahead]
  · rw [hconsumed]
    exact h.fetched_next.symm
  · rw [hconsumed]
    exact h.not_ended

theorem settled_ofSource (source : String) :
    (ofSource source).Settled (tokenize source) (tokenize source) :=
  ⟨.unread (lexed_tokenize source), rfl, rfl, nofun⟩

variable {options : ParseOptions} {parser after last : Parser} {requests : List Request}

theorem Settled.running_step (h : ledger.Settled tokens ahead) (hl : ledger.reader = parser.reader)
    (hstep : parser.recordedStep options = (requests, .running after)) :
    ledger.Follows tokens requests ∧ (ledger.serveAll requests).reader = after.reader ∧
      ∃ rest, (ledger.serveAll requests).Settled tokens rest := by
  rcases Parser.requests_of_running hstep with ⟨rfl, hr, hk⟩ | ⟨rfl, hr⟩
  · rw [← hl] at hr hk ⊢
    exact ⟨⟨h.balances, h.permits_next, h.balances_next⟩, hr.symm, h.next hk⟩
  · rw [← hl] at hr ⊢
    -- between the two requests the token is with the parser and the ledger is not settled
    exact ⟨⟨h.balances, h.permits_next, h.balances_next, ledger.permits_putBack,
      h.putBack.balances⟩, hr.symm, ahead, h.putBack⟩

theorem Settled.follows_recordedRun (h : ledger.Settled tokens ahead) (options : ParseOptions)
    (hl : ledger.reader = parser.reader) :
    ledger.Follows tokens (parser.recordedRun options).1 ∧
      (ledger.serveAll (parser.recordedRun options).1).consumed.getLast? =
        some (parser.recordedRun options).2.token := by
  fun_induction Parser.recordedRun options parser generalizing ledger ahead with
  | case1 parser requests after hstep more ending hrun ih =>
    obtain ⟨hfollows, hafter, rest, hsettled⟩ := h.running_step hl hstep
    rw [hrun] at ih
    obtain ⟨hmore, hlast⟩ := ih hsettled hafter
    exact ⟨hfollows.append hmore, by rw [serveAll_append, hlast]⟩
  | case2 parser requests ending hstep =>
    obtain ⟨rfl, htoken⟩ := Parser.requests_of_ended hstep
    rw [htoken, ← hl]
    exact ⟨⟨h.balances, h.permits_next, h.balances_next⟩, List.getLast?_concat⟩

theorem Settled.exists_reader_eq (h : ledger.Settled tokens ahead)
    (hl : ledger.reader = parser.reader) (hr : parser.Reaches options last) :
    ∃ past, past <+: (parser.recordedRun options).1 ∧
      (ledger.serveAll past).reader = last.reader := by
  induction hr using Relation.ReflTransGen.head_induction_on generalizing ledger ahead with
  | refl => exact ⟨[], List.nil_prefix, hl⟩
  | @head parser after hstep _ ih =>
    have hrecorded := Parser.recordedStep_of_step hstep
    obtain ⟨-, hafter, rest, hsettled⟩ := h.running_step hl hrecorded
    obtain ⟨past, hpast, hlast⟩ := ih hsettled hafter
    refine ⟨(parser.recordedStep options).1 ++ past, ?_, by rw [serveAll_append, hlast]⟩
    rw [Parser.recordedRun_of_running hrecorded]
    exact (List.prefix_append_right_inj _).mpr hpast

end Ledger

/-- The requests are those that the parser's own step makes, run with a recorder. The ledger of them
balances and permits the next one at every point of the run, and has the readers of all its states;
it ends with the token that the run ends on. -/
theorem parser_requests_balance (source : String) (options : ParseOptions) :
    let requests := ((Parser.ofSource source).recordedRun options).1
    let ledger := (Ledger.ofSource source).serveAll
    (∀ parser, (Parser.recordedStep options parser).2 = parser.step options) ∧
    ((Parser.ofSource source).recordedRun options).2 = (Parser.ofSource source).run options ∧
    (∀ past, past <+: requests → (ledger past).Balances (tokenize source)) ∧
    (∀ past request, past ++ [request] <+: requests → (ledger past).Permits request) ∧
    (∀ parser, (Parser.ofSource source).Reaches options parser →
      ∃ past, past <+: requests ∧ (ledger past).reader = parser.reader) ∧
    (ledger requests).consumed.getLast? =
      some ((Parser.ofSource source).run options).token ∧
    (ledger requests).fetched.length ≤ (tokenize source).length := by
  intro requests ledger
  have hreader : (Ledger.ofSource source).reader = (Parser.ofSource source).reader := rfl
  have hsettled := Ledger.settled_ofSource source
  obtain ⟨hfollows, hlast⟩ := hsettled.follows_recordedRun options hreader
  rw [Parser.snd_recordedRun] at hlast
  exact ⟨Parser.snd_recordedStep options, Parser.snd_recordedRun options _,
    fun _ hp => hfollows.balances hp, fun _ _ hp => hfollows.permits hp,
    fun _ hr => hsettled.exists_reader_eq hreader hr, hlast,
    (hfollows.balances List.prefix_rfl).fetched_in_front.length_le⟩

end SignatureRules
