import Folio.Proofs.Query.Notes
import Folio.Proofs.Sequence
import Mathlib.Data.List.Basic

/-!
# Accounting for queries in use

A caller starts queries, compiles them and asks them for pages, in any order. The counters then hold
how often each of these ended in which way: the notes that a call leaves in the journal add as much
to each counter as the reply adds to what the counter is to hold. No query counts as compiled twice,
because a session remembers the outcome of compiling exactly if its query was used.
-/

namespace Folio

/-- Something that a caller does. Queries are numbered in the order in which they start. -/
inductive Call where
  | start (text : String) (settings : Settings)
  | compile (query : Nat)
  | execute (query : Nat) (collection : List Json) (request : Request)

/-- What a caller is given back. -/
inductive Reply where
  | started (outcome : Except QueryError Session)
  | compiled (query : Nat) (outcome : Except QueryError Procedure)
  | executed (query : Nat) (collection : List Json) (request : Request)
    (outcome : Except QueryError Page)

namespace Reply

/-- Whether the reply is to a use of the query. -/
def uses (query : Nat) : Reply → Bool
  | .started _ => false
  | .compiled used _ => used == query
  | .executed used _ _ _ => used == query

/-- How much the reply adds to what a counter is to hold. That a query was compiled for the first
time cannot be seen from one reply. -/
def amount : Counter → Reply → Nat
  | .queriesParsed, .started (.ok _) => 1
  | .queriesRejected, .started (.error _) => 1
  | .queriesRejected, .executed _ _ _ (.error _) => 1
  | .executions, .executed _ _ _ (.ok _) => 1
  | .rowsReturned, .executed _ _ _ (.ok page) => page.results.length
  | .pagesTruncated, .executed _ _ _ (.ok page) => if page.next.isSome then 1 else 0
  | _, _ => 0

/-- How much replies add to what a counter is to hold. -/
def total (counter : Counter) : List Reply → Nat
  | [] => 0
  | reply :: replies => reply.amount counter + total counter replies

/-- A reply after others adds its amount to theirs. -/
theorem total_concat (counter : Counter) (replies : List Reply) (reply : Reply) :
    total counter (replies ++ [reply]) = total counter replies + reply.amount counter := by
  induction replies with
  | nil => exact Nat.add_comm _ _
  | cons first replies ih => rw [List.cons_append, total, total, ih, Nat.add_assoc]

/-- Whether a reply to a use of a query goes back to the one outcome of compiling its statement. -/
def Agrees (sessions : List Session) : Reply → Prop
  | .started _ => True
  | .compiled query outcome => ∃ s, sessions[query]? = some s ∧ outcome = s.statement.compile
  | .executed query collection request outcome => ∃ s, sessions[query]? = some s ∧
    outcome = (s.outcome collection request).map Outcome.page

/-- A reply agrees with sessions that have the statements and settings of others. -/
theorem Agrees.mono {sessions sessions' : List Session} {reply : Reply}
    (h : reply.Agrees sessions)
    (hkept : ∀ (query : Nat) (s : Session), sessions[query]? = some s → ∃ s' : Session,
      sessions'[query]? = some s' ∧ s'.statement = s.statement ∧ s'.settings = s.settings) :
    reply.Agrees sessions' := by
  cases reply with
  | started outcome => trivial
  | compiled query outcome =>
    obtain ⟨s, hs, houtcome⟩ := h
    obtain ⟨s', hs', hstatement, -⟩ := hkept query s hs
    exact ⟨s', hs', by rw [houtcome, hstatement]⟩
  | executed query collection request outcome =>
    obtain ⟨s, hs, houtcome⟩ := h
    obtain ⟨s', hs', hstatement, hsettings⟩ := hkept query s hs
    exact ⟨s', hs', by rw [houtcome, Session.outcome, Session.outcome, hstatement, hsettings]⟩

end Reply

/-- The queries in use, the journal, and all replies so far, oldest first. -/
structure Usage where
  sessions : List Session
  journal : Journal
  replies : List Reply

namespace Usage

/-- No query was started, and the journal is empty. -/
def fresh (threshold : Level) : Usage := ⟨[], { Journal.empty with threshold }, []⟩

/-- One call. A call of a query that was not started changes nothing. -/
def step (u : Usage) : Call → Usage
  | .start text settings =>
    let (outcome, journal) := (Session.start text settings).run u.journal
    ⟨u.sessions ++ outcome.toOption.toList, journal, u.replies ++ [.started outcome]⟩
  | .compile query =>
    match u.sessions[query]? with
    | some s =>
      let ((outcome, s), journal) := s.compile.run u.journal
      ⟨u.sessions.set query s, journal, u.replies ++ [.compiled query outcome]⟩
    | none => u
  | .execute query collection request =>
    match u.sessions[query]? with
    | some s =>
      let ((outcome, s), journal) := (s.execute collection request).run u.journal
      ⟨u.sessions.set query s, journal,
        u.replies ++ [.executed query collection request outcome]⟩
    | none => u

/-- Calls, one after another. -/
def run (u : Usage) (calls : List Call) : Usage := calls.foldl step u

/-- The threshold of its own that a call writes lines under, if its query has one. -/
def own (u : Usage) : Call → Option Level
  | .start _ settings => settings.level
  | .compile query => u.sessions[query]?.bind fun s => s.settings.level
  | .execute query _ _ => u.sessions[query]?.bind fun s => s.settings.level

/-- Whether the query was compiled or executed. -/
def used (u : Usage) (query : Nat) : Bool := u.replies.any (Reply.uses query)

/-- What a counter is to hold: how many texts were parsed, how many queries were used whose
statement compiles, how many texts and requests were refused, how many requests were answered, how
many rows were returned, and how many pages were cut. -/
def number (u : Usage) : Counter → Nat
  | .queriesCompiled =>
    u.sessions.zipIdx.countP fun (s, query) => u.used query && s.statement.compile.isOk
  | counter => Reply.total counter u.replies

/-! ## What a call does -/

/-- What a call can do: nothing, start a session, or use one. Whichever it is, the notes are the
same as what the reply adds, except that the first use leaves a note of compiling. -/
inductive Move (u : Usage) : Option Level → List Note → Usage → Prop
  | idle (own : Option Level) : Move u own [] u
  | start (text : String) (settings : Settings) :
    Move u settings.level (Session.startNotes text)
      ⟨u.sessions ++ (Session.started text settings).toOption.toList,
        u.journal.noteAll settings.level (Session.startNotes text),
        u.replies ++ [.started (Session.started text settings)]⟩
  | use {query : Nat} {s : Session} {reply : Reply} {notes : List Note}
    (session : u.sessions[query]? = some s) (uses : ∀ other, reply.uses other = (query == other))
    (amount : ∀ counter, reply.amount counter = Note.total counter notes)
    (agrees : reply.Agrees u.sessions) :
    Move u s.settings.level (s.compileNotes ++ notes)
      ⟨u.sessions.set query s.afterCompile,
        u.journal.noteAll s.settings.level (s.compileNotes ++ notes), u.replies ++ [reply]⟩

/-- The invariant of use. -/
structure Sound (u : Usage) : Prop where
  /-- A session remembers the outcome of compiling its statement if its query was used. -/
  memo : ∀ query s, u.sessions[query]? = some s →
    s.compiled = if u.used query then some s.statement.compile else none
  /-- Only queries that were started were used. -/
  bound : ∀ query, u.used query = true → query < u.sessions.length
  /-- As many texts were parsed as there are sessions. -/
  parsed : u.number .queriesParsed = u.sessions.length
  /-- Replies go back to the one outcome of compiling. -/
  agrees : ∀ reply ∈ u.replies, reply.Agrees u.sessions

variable {u u' : Usage} {own : Option Level} {notes : List Note}

/-- Nothing is wrong before the first call. -/
theorem sound_fresh (threshold : Level) : (fresh threshold).Sound where
  memo _ _ h := by simp [fresh] at h
  bound _ h := by simp [fresh, used] at h
  parsed := rfl
  agrees _ h := by simp [fresh] at h

/-- A session in use is faithful. -/
theorem Sound.faithful (h : u.Sound) {query : Nat} {s : Session}
    (hs : u.sessions[query]? = some s) : s.Faithful := by
  have hmemo := h.memo query s hs
  by_cases hused : u.used query = true
  · exact .inr (by rw [hmemo, if_pos hused])
  · exact .inl (by rw [hmemo, if_neg hused])

/-- What a request leaves is what its reply adds. -/
theorem amount_executed (query : Nat) (collection : List Json) (request : Request)
    (outcome : Except QueryError Outcome) (counter : Counter) :
    (Reply.executed query collection request (outcome.map Outcome.page)).amount counter =
      Note.total counter (Session.answerNotes outcome) := by
  cases outcome with
  | error e => cases counter <;> rfl
  | ok found =>
    rw [Session.answerNotes, Session.cutNotes]
    cases hnext : found.page.next <;> cases counter <;>
      simp [Except.map, Reply.amount, Note.total, Note.amount, Event.counter, Outcome.returned,
        hnext]

/-- A call makes one of the moves. -/
theorem move_step (h : u.Sound) (call : Call) :
    ∃ notes, Move u (u.own call) notes (u.step call) := by
  cases call with
  | start text settings =>
    refine ⟨Session.startNotes text, ?_⟩
    rw [step, Session.start_eq]
    exact .start text settings
  | compile query =>
    rw [step, Usage.own]
    cases hs : u.sessions[query]? with
    | none => exact ⟨[], .idle _⟩
    | some s =>
      refine ⟨s.compileNotes ++ [], ?_⟩
      have hamount (counter : Counter) :
          (Reply.compiled query s.statement.compile).amount counter = Note.total counter [] := by
        cases counter <;> rfl
      have hmove := Move.use hs (fun _ => rfl) hamount ⟨s, hs, rfl⟩
      simp only [Session.compile_eq (h.faithful hs), Option.bind_some]
      rwa [List.append_nil] at hmove ⊢
  | execute query collection request =>
    rw [step, Usage.own]
    cases hs : u.sessions[query]? with
    | none => exact ⟨[], .idle _⟩
    | some s =>
      refine ⟨s.compileNotes ++ Session.answerNotes (s.outcome collection request), ?_⟩
      simp only [Session.execute_eq (h.faithful hs), Option.bind_some,
        ← Journal.noteAll_append]
      exact .use hs (fun _ => rfl) (amount_executed query collection request _) ⟨s, hs, rfl⟩

/-- A move leaves its notes. -/
theorem Move.journal_eq (h : Move u own notes u') :
    u'.journal = u.journal.noteAll own notes := by
  cases h <;> rfl

/-! ## What every call preserves -/

/-- A query is used by a reply if it was used before or the reply uses it. -/
theorem used_append (sessions : List Session) (journal : Journal) (reply : Reply) (query : Nat) :
    (Usage.mk sessions journal (u.replies ++ [reply])).used query =
      (u.used query || reply.uses query) := by
  simp [used]

/-- A reply adds its amount, except to the number of queries that were compiled. -/
theorem number_append {counter : Counter} (hcounter : counter ≠ .queriesCompiled)
    (sessions : List Session) (journal : Journal) (reply : Reply) :
    (Usage.mk sessions journal (u.replies ++ [reply])).number counter =
      u.number counter + reply.amount counter := by
  cases counter with
  | queriesCompiled => exact absurd rfl hcounter
  | _ => exact Reply.total_concat _ _ _

/-- Starting a session keeps the others. -/
theorem sessions_append {query : Nat} {s : Session} (hs : u.sessions[query]? = some s)
    (others : List Session) : (u.sessions ++ others)[query]? = some s := by
  rw [List.getElem?_append_left (List.getElem?_eq_some_iff.mp hs).1, hs]

/-- The session that joins the others when a text starts one is the one that it starts. -/
theorem mem_started {text : String} {settings : Settings} {s : Session} :
    s ∈ (Session.started text settings).toOption.toList ↔
      ∃ statement, Query.parse (Text.trim text) = .ok statement ∧
        s = ⟨Text.trim text, statement, settings, none⟩ := by
  rw [Option.mem_toList, toOption_eq_some_iff, Session.started_eq_ok_iff]

/-- Starting a session preserves the invariant. -/
theorem Sound.start (h : u.Sound) (text : String) (settings : Settings) (journal : Journal) :
    (Usage.mk (u.sessions ++ (Session.started text settings).toOption.toList) journal
      (u.replies ++ [.started (Session.started text settings)])).Sound := by
  have hcompiled : ∀ s ∈ (Session.started text settings).toOption.toList, s.compiled = none := by
    intro s hs
    obtain ⟨statement, -, rfl⟩ := mem_started.mp hs
    rfl
  constructor
  · intro query s hs
    rw [used_append, Reply.uses, Bool.or_false]
    by_cases hold : query < u.sessions.length
    · rw [List.getElem?_append_left hold] at hs
      exact h.memo query s hs
    · -- the session is new, so nothing has used it
      have hfresh : ¬ u.used query = true := fun hused => hold (h.bound query hused)
      rw [List.getElem?_append_right (Nat.le_of_not_lt hold)] at hs
      rw [if_neg hfresh, hcompiled s (List.mem_of_getElem? hs)]
  · intro query hused
    rw [used_append, Reply.uses, Bool.or_false] at hused
    exact Nat.lt_of_lt_of_le (h.bound query hused) (by simp)
  · rw [number_append (by decide), h.parsed, List.length_append]
    cases Session.started text settings <;> rfl
  · intro reply hreply
    rcases List.mem_append.mp hreply with hold | hnew
    · exact (h.agrees reply hold).mono fun query s hs => ⟨s, sessions_append hs _, rfl, rfl⟩
    · rw [List.mem_singleton.mp hnew]
      trivial

/-- A session that is used keeps its statement and settings, and so do the others. -/
theorem sessions_set {query : Nat} {s : Session} (hs : u.sessions[query]? = some s) (other : Nat)
    (t : Session) (ht : u.sessions[other]? = some t) :
    ∃ t', (u.sessions.set query s.afterCompile)[other]? = some t' ∧
      t'.statement = t.statement ∧ t'.settings = t.settings := by
  by_cases heq : query = other
  · subst heq
    obtain rfl := Option.some.inj (hs.symm.trans ht)
    obtain ⟨hquery, -⟩ := List.getElem?_eq_some_iff.mp hs
    exact ⟨_, List.getElem?_set_self hquery, rfl, rfl⟩
  · exact ⟨t, by rw [List.getElem?_set_ne heq, ht], rfl, rfl⟩

/-- Using a session preserves the invariant. -/
theorem Sound.use (h : u.Sound) {query : Nat} {s : Session} {reply : Reply}
    (hs : u.sessions[query]? = some s) (huses : ∀ other, reply.uses other = (query == other))
    (hagrees : reply.Agrees u.sessions) (journal : Journal) :
    (Usage.mk (u.sessions.set query s.afterCompile) journal (u.replies ++ [reply])).Sound := by
  obtain ⟨hquery, -⟩ := List.getElem?_eq_some_iff.mp hs
  constructor
  · intro other t ht
    rw [used_append, huses]
    by_cases heq : query = other
    · subst heq
      rw [List.getElem?_set_self hquery] at ht
      obtain rfl := Option.some.inj ht
      simp [Session.afterCompile]
    · rw [List.getElem?_set_ne heq] at ht
      rw [beq_false_of_ne heq, Bool.or_false]
      exact h.memo other t ht
  · intro other hused
    rw [used_append, huses, Bool.or_eq_true, beq_iff_eq] at hused
    rw [List.length_set]
    rcases hused with hused | rfl
    · exact h.bound other hused
    · exact hquery
  · have hamount : reply.amount .queriesParsed = 0 := by
      cases reply with
      | started outcome => exact absurd (huses query) (by simp [Reply.uses])
      | _ => rfl
    rw [number_append (by decide), hamount, h.parsed, List.length_set, Nat.add_zero]
  · intro other hother
    have hbefore : other.Agrees u.sessions := by
      rcases List.mem_append.mp hother with hold | hnew
      · exact h.agrees other hold
      · rwa [List.mem_singleton.mp hnew]
    exact hbefore.mono (sessions_set hs)

/-- Every move preserves the invariant. -/
theorem Move.sound (h : u.Sound) (hmove : Move u own notes u') : u'.Sound := by
  cases hmove with
  | idle => exact h
  | start text settings => exact h.start text settings _
  | use hs huses hamount hagrees => exact h.use hs huses hagrees _

/-! ## Numbers -/

/-- Whether the session was used and its statement compiles. -/
def isCounted (s : Session) : Bool := s.isCompiled && s.statement.compile.isOk

/-- The queries that count as compiled are those whose session remembers a success. -/
theorem Sound.number_compiled (h : u.Sound) :
    u.number .queriesCompiled = u.sessions.countP isCounted := by
  have hmemo : ∀ entry ∈ u.sessions.zipIdx,
      (u.used entry.2 && entry.1.statement.compile.isOk) = true ↔ isCounted entry.1 = true := by
    rintro ⟨s, query⟩ hentry
    have hs := h.memo query s (List.mem_zipIdx_iff_getElem?.mp hentry)
    by_cases hused : u.used query = true <;>
      simp [isCounted, Session.isCompiled, hs, hused]
  have hfirst : u.sessions.zipIdx.map Prod.fst = u.sessions := List.zipIdx_map_fst 0 u.sessions
  calc u.number .queriesCompiled
      = u.sessions.zipIdx.countP (isCounted ∘ Prod.fst) := List.countP_congr hmemo
    _ = (u.sessions.zipIdx.map Prod.fst).countP isCounted := List.countP_map.symm
    _ = u.sessions.countP isCounted := by rw [hfirst]

/-- The number of compiled queries grows by one at most, by what the first use leaves. -/
theorem countP_afterCompile {query : Nat} {s : Session} (hs : u.sessions[query]? = some s) :
    (u.sessions.set query s.afterCompile).countP isCounted =
      u.sessions.countP isCounted + Note.total .queriesCompiled s.compileNotes := by
  -- only the place of the query changes
  obtain ⟨hquery, hget⟩ := List.getElem?_eq_some_iff.mp hs
  obtain ⟨front, rest, hsessions, -, hset⟩ := List.exists_of_set hquery
  rw [hget] at hsessions
  have hnotes : Note.total .queriesCompiled s.compileNotes =
      if !s.isCompiled && s.statement.compile.isOk then 1 else 0 := by
    rw [Session.compileNotes]
    split <;> rfl
  have hafter : isCounted s.afterCompile = s.statement.compile.isOk := rfl
  rw [hset, hsessions, hnotes, List.countP_append, List.countP_append, List.countP_cons,
    List.countP_cons, hafter, isCounted]
  cases s.isCompiled <;> cases s.statement.compile.isOk <;> simp [Nat.add_assoc]

/-- Notes of compiling add to the number of compiled queries only. -/
theorem total_compileNotes {counter : Counter} (hcounter : counter ≠ .queriesCompiled)
    (s : Session) : Note.total counter s.compileNotes = 0 := by
  rw [Session.compileNotes]
  by_cases hfirst : (!s.isCompiled && s.statement.compile.isOk) = true
  · rw [if_pos hfirst]
    cases counter <;> simp_all [Note.total, Note.amount, Event.counter]
  · rw [if_neg hfirst]
    rfl

/-- The start of a session leaves what its reply adds. -/
theorem total_startNotes (text : String) (settings : Settings) (counter : Counter) :
    Note.total counter (Session.startNotes text) =
      (Reply.started (Session.started text settings)).amount counter := by
  unfold Session.startNotes Session.started
  cases Query.parse (Text.trim text) <;> cases counter <;> rfl

/-- A move adds to each number what its notes add up to. -/
theorem Move.number_eq (h : u.Sound) (hmove : Move u own notes u') (counter : Counter) :
    u'.number counter = u.number counter + Note.total counter notes := by
  have hafter := hmove.sound h
  -- compiled queries are counted by what the sessions remember, all else by the replies
  by_cases hcounter : counter = .queriesCompiled
  · subst hcounter
    rw [h.number_compiled, hafter.number_compiled]
    cases hmove with
    | idle => rfl
    | start text settings =>
      rw [List.countP_append, total_startNotes text settings]
      unfold Session.started
      cases Query.parse (Text.trim text) <;> rfl
    | @use query s reply notes hs huses hamount hagrees =>
      have hreply : reply.amount .queriesCompiled = 0 := by cases reply <;> rfl
      rw [countP_afterCompile hs, Note.total_append, ← hamount, hreply, Nat.add_zero]
  · cases hmove with
    | idle => rfl
    | start text settings => rw [number_append hcounter, total_startNotes text settings]
    | use hs huses hamount hagrees =>
      rw [number_append hcounter, hamount, Note.total_append, total_compileNotes hcounter,
        Nat.zero_add]

/-! ## Lines under the threshold `trace` -/

/-- The lines of all sessions are written under the threshold `trace`. -/
def Traced (u : Usage) : Prop :=
  ∀ s ∈ u.sessions, s.settings.level.getD u.journal.threshold = .trace

/-- No move changes the threshold of the journal. -/
theorem Move.threshold_eq (hmove : Move u own notes u') :
    u'.journal.threshold = u.journal.threshold := by
  rw [hmove.journal_eq, Journal.threshold_noteAll]

/-- A move under the threshold `trace` leaves the lines of all sessions under it. -/
theorem Move.traced (h : u.Traced) (htrace : own.getD u.journal.threshold = .trace)
    (hmove : Move u own notes u') : u'.Traced := by
  have hthreshold := hmove.threshold_eq
  intro s' hs'
  rw [hthreshold]
  cases hmove with
  | idle => exact h s' hs'
  | start text settings =>
    rcases List.mem_append.mp hs' with hold | hnew
    · exact h s' hold
    · obtain ⟨statement, -, rfl⟩ := mem_started.mp hnew
      exact htrace
  | use hs =>
    rcases List.mem_or_eq_of_mem_set hs' with hold | rfl
    · exact h s' hold
    · exact htrace

/-- A call under the threshold `trace` writes as many lines of an event as its counter counts. -/
theorem countP_lines_step (h : u.Sound) {call : Call}
    (htrace : (u.own call).getD u.journal.threshold = .trace) (event : Event) :
    (u.step call).journal.lines.countP event.heads + u.number event.counter =
      u.journal.lines.countP event.heads + (u.step call).number event.counter := by
  obtain ⟨notes, hmove⟩ := move_step h call
  rw [hmove.journal_eq, Journal.countP_lines_noteAll htrace, hmove.number_eq h]
  omega

/-- A call does nothing, or its lines are under the threshold `trace` as those of all sessions. -/
theorem own_of_traced (h : u.Traced) (call : Call) (hstart : ∀ text settings,
    call = .start text settings → settings.level.getD u.journal.threshold = .trace) :
    u.step call = u ∨ (u.own call).getD u.journal.threshold = .trace := by
  have hquery (query : Nat) : u.sessions[query]? = none ∨
      (u.sessions[query]?.bind fun s => s.settings.level).getD u.journal.threshold = .trace := by
    cases hs : u.sessions[query]? with
    | none => exact .inl rfl
    | some s => exact .inr (h s (List.mem_of_getElem? hs))
  cases call with
  | start text settings => exact .inr (hstart text settings rfl)
  | compile query => exact (hquery query).imp_left fun hnone => by rw [step, hnone]
  | execute query _ _ => exact (hquery query).imp_left fun hnone => by rw [step, hnone]

/-! ## Runs -/

/-- After all calls the invariant holds, the threshold is what it was, and so does whatever else
every call preserves. -/
theorem run_induction (P : Usage → Prop) {threshold : Level} {calls : List Call}
    (h : P (fresh threshold)) (hstep : ∀ u : Usage, u.Sound → u.journal.threshold = threshold →
      P u → ∀ call ∈ calls, P (u.step call)) :
    ((fresh threshold).run calls).Sound ∧
      ((fresh threshold).run calls).journal.threshold = threshold ∧
      P ((fresh threshold).run calls) := by
  refine List.foldlRecOn calls step
    (motive := fun u => u.Sound ∧ u.journal.threshold = threshold ∧ P u)
    ⟨sound_fresh threshold, rfl, h⟩ ?_
  rintro u ⟨hsound, hthreshold, hu⟩ call hcall
  obtain ⟨notes, hmove⟩ := move_step hsound call
  exact ⟨hmove.sound hsound, hmove.threshold_eq.trans hthreshold,
    hstep u hsound hthreshold hu call hcall⟩

/-- After all calls the invariant holds, the threshold is what it was, and the counters hold their
numbers. -/
theorem run_spec (threshold : Level) (calls : List Call) :
    ((fresh threshold).run calls).Sound ∧
      ((fresh threshold).run calls).journal.threshold = threshold ∧
      ∀ counter, ((fresh threshold).run calls).journal.counters.count counter =
        UInt64.ofNat (((fresh threshold).run calls).number counter) := by
  refine run_induction (fun u => ∀ counter, u.journal.counters.count counter =
    UInt64.ofNat (u.number counter)) ?_ ?_
  · intro counter
    cases counter <;> rfl
  · intro u hsound _ hcount call _ counter
    obtain ⟨notes, hmove⟩ := move_step hsound call
    rw [hmove.journal_eq, Journal.count_noteAll, hcount, hmove.number_eq hsound, UInt64.ofNat_add]

/-- If all sessions start under the threshold `trace`, there are as many lines of an event as its
counter counts. -/
theorem countP_lines_run {threshold : Level} {calls : List Call} (hstart : ∀ text settings,
    Call.start text settings ∈ calls → settings.level.getD threshold = .trace) (event : Event) :
    ((fresh threshold).run calls).journal.lines.countP event.heads =
      ((fresh threshold).run calls).number event.counter := by
  -- a call keeps the lines of all sessions under the threshold, and with that the two counts equal
  refine (run_induction (fun u => u.Traced ∧
    u.journal.lines.countP event.heads = u.number event.counter) ?_ ?_).2.2.2
  · refine ⟨List.forall_mem_nil _, ?_⟩
    cases event <;> rfl
  · rintro u hsound rfl ⟨htraced, hlines⟩ call hcall
    rcases own_of_traced htraced call fun text settings heq =>
      hstart text settings (heq ▸ hcall) with hidle | htrace
    · rw [hidle]
      exact ⟨htraced, hlines⟩
    · obtain ⟨notes, hmove⟩ := move_step hsound call
      have hstep := countP_lines_step hsound htrace event
      exact ⟨hmove.traced htraced htrace, by omega⟩

/-- **Accounting for queries in use.** After all calls of a caller, in whatever order:

* each counter holds, in 64 bits, its number of replies: texts parsed, queries used whose statement
  compiles, texts and requests refused, requests answered, rows returned, pages cut;
* no more queries count as compiled than texts were parsed;
* the session of a query remembers the outcome of compiling its statement if the query was used, and
  every reply to a use goes back to that outcome;
* a call whose lines are written under the threshold `trace` writes as many lines of each event as
  the counter of the event grows by;
* if that is the threshold of every text, there are as many lines of each event as its counter
  counts. -/
theorem accounting (threshold : Level) (calls : List Call) :
    let u := (fresh threshold).run calls
    (∀ counter, u.journal.counters.count counter = UInt64.ofNat (u.number counter)) ∧
    u.number .queriesCompiled ≤ u.number .queriesParsed ∧
    (∀ query s, u.sessions[query]? = some s →
      s.compiled = if u.used query then some s.statement.compile else none) ∧
    (∀ reply ∈ u.replies, reply.Agrees u.sessions) ∧
    (∀ call, (u.own call).getD threshold = .trace → ∀ event : Event,
      (u.step call).journal.lines.countP event.heads + u.number event.counter =
        u.journal.lines.countP event.heads + (u.step call).number event.counter) ∧
    ((∀ text settings, Call.start text settings ∈ calls →
        settings.level.getD threshold = .trace) →
      ∀ event : Event, u.journal.lines.countP event.heads = u.number event.counter) := by
  intro u
  obtain ⟨hsound, hthreshold, hcount⟩ := run_spec threshold calls
  refine ⟨hcount, ?_, hsound.memo, hsound.agrees, ?_, countP_lines_run⟩
  · rw [hsound.number_compiled, hsound.parsed]
    exact List.countP_le_length
  · intro call htrace event
    exact countP_lines_step hsound (hthreshold.symm ▸ htrace) event

/-- Two texts, one of them refused, and then three uses of the query: a page of the one row, a
request with a token that is none, and compiling it again, which leaves nothing. -/
theorem accounting_five_calls :
    let settings : Settings := { level := some .trace }
    let documents : List Json := [.object [("_rid", .string "a")]]
    let calls : List Call := [.start "SELECT" settings, .start "SELECT * FROM c" settings,
      .execute 0 documents { Request.plain with pageSize := some 1 },
      .execute 0 documents { Request.plain with token := some "?" }, .compile 0]
    let u := (fresh .warn).run calls
    (Counter.all.map u.number = [1, 0, 1, 1, 2, 1] ∧
      Counter.all.map u.journal.counters.count = [1, 0, 1, 1, 2, 1]) ∧
    ((∀ text settings, Call.start text settings ∈ calls →
        settings.level.getD Level.warn = .trace) ∧
      ∀ event : Event, u.journal.lines.countP event.heads = u.number event.counter) ∧
    ((u.own (.compile 0)).getD .warn = .trace ∧ ∀ event : Event,
      (u.step (.compile 0)).journal.lines.countP event.heads + u.number event.counter =
        u.journal.lines.countP event.heads + (u.step (.compile 0)).number event.counter) := by
  intro settings documents calls u
  have hnumbers : Counter.all.map u.number = [1, 0, 1, 1, 2, 1] := by decide +kernel
  have hown : (u.own (.compile 0)).getD .warn = .trace := by decide +kernel
  have hstart : ∀ text settings, Call.start text settings ∈ calls →
      settings.level.getD Level.warn = .trace := by
    intro text settings hcall
    simp only [calls, List.mem_cons, Call.start.injEq, reduceCtorEq, List.not_mem_nil,
      or_false] at hcall
    rcases hcall with ⟨-, rfl⟩ | ⟨-, rfl⟩ <;> rfl
  obtain ⟨hcount, -, -, -, hstep, hlines⟩ := accounting .warn calls
  refine ⟨⟨hnumbers, ?_⟩, ⟨hstart, hlines hstart⟩, hown, hstep (.compile 0) hown⟩
  have hcounts : Counter.all.map u.journal.counters.count =
      (Counter.all.map u.number).map UInt64.ofNat := by
    rw [List.map_map]
    exact List.map_congr_left fun counter _ => hcount counter
  rw [hcounts, hnumbers]
  rfl

end Usage

end Folio
