import Mathlib.Data.List.Forall2
import Mathlib.Data.List.Induction
import Recast.Profile

/-!
What a profiler keeps of what it is told. It is told to start and to stop, and sizes are noted in
between; what it keeps is settled by the events alone. A stop makes its record before it tells the
figures of it, so figures that are too long to be written leave the operation under way.

* `UnderWay`: the operation of the latest start, unless a stop since could tell its figures;
* `session_heard`: what a profiler would record next is the operation under way;
* `finishes_heard`: its history has one record for each stop that finds an operation under way;
* `history_kept`: the same for steps that may profile whole bodies, with what is shown of the
  history.
-/

namespace Recast.Profiler

/-! ## Events -/

/-- What a profiler is told. A sample looks at figures that are measured outside. -/
inductive Event where
  | start (operation : String) (inputSize rules : Int)
  | record (outputSize : Int)
  | sample
  | stop

namespace Event

/-- What is started has a name. -/
def Named : Event → Prop
  | .start operation _ _ => operation ≠ ""
  | _ => True

def IsStart : Event → Prop
  | .start .. => True
  | _ => False

def size? : Event → Option Int
  | .record n => some n
  | _ => none

end Event

/-- The size recorded last, or zero if there is none. -/
def lastSize (events : List Event) : Int := (events.filterMap Event.size?).getLast?.getD 0

/-- The operation under way after events: that of the latest start, with the size recorded last
since that start. No stop since has finished it: each found figures that could not be told. -/
def UnderWay (events : List Event) (m : Measurement) : Prop :=
  ∃ before after, events = before ++ .start m.operation m.inputSize m.rules :: after ∧
    (∀ e ∈ after, ¬ e.IsStart) ∧ m.outputSize = lastSize after ∧
    ∀ part rest, after = part ++ .stop :: rest →
      Measurement.isTellable { m with outputSize := lastSize part } = false

/-- The records that events make, in order: each stop makes that of the operation under way, if any.
-/
inductive Finishes : List Event → List Measurement → Prop where
  | nothing : Finishes [] []
  | stop {events : List Event} {ms : List Measurement} {m : Measurement}
      (earlier : Finishes events ms) (active : UnderWay events m) :
      Finishes (events ++ [.stop]) (ms ++ [m])
  | idle {events : List Event} {ms : List Measurement} (earlier : Finishes events ms)
      (idle : ∀ m, ¬ UnderWay events m) : Finishes (events ++ [.stop]) ms
  | other {events : List Event} {ms : List Measurement} {e : Event} (earlier : Finishes events ms)
      (goes : e ≠ .stop) : Finishes (events ++ [e]) ms

theorem lastSize_concat (events : List Event) (e : Event) :
    lastSize (events ++ [e]) = e.size?.getD (lastSize events) := by
  cases e <;> simp [lastSize, Event.size?]

/-- A stop among events and one more is among the events, or it is that one. -/
theorem concat_eq_stop {after part rest : List Event} {e : Event}
    (split : after ++ [e] = part ++ .stop :: rest) :
    (∃ rest', after = part ++ .stop :: rest') ∨ after = part ∧ e = .stop := by
  cases rest using List.reverseRecOn with
  | nil =>
    obtain ⟨same, last⟩ := List.append_inj' split rfl
    exact Or.inr ⟨same, (List.cons.inj last).1⟩
  | append_singleton rest f =>
    rw [← List.cons_append, ← List.append_assoc] at split
    exact Or.inl ⟨rest, (List.append_inj' split rfl).1⟩

section
variable {events : List Event} {m : Measurement}

theorem underWay_start (events : List Event) (operation : String) (inputSize rules : Int) :
    UnderWay (events ++ [.start operation inputSize rules]) ⟨operation, inputSize, 0, rules⟩ :=
  ⟨events, [], rfl, by simp, rfl, by simp⟩

/-- One more event leaves an operation under way, unless it is a start, or a stop that can tell the
figures. -/
theorem UnderWay.concat (h : UnderWay events m) {e : Event} (goes : ¬ e.IsStart)
    (untold : e = .stop → m.isTellable = false) :
    UnderWay (events ++ [e]) { m with outputSize := e.size?.getD m.outputSize } := by
  obtain ⟨before, after, rfl, later, size, stops⟩ := h
  refine ⟨before, after ++ [e], by simp, ?_, ?_, fun part rest split => ?_⟩
  · exact List.forall_mem_append.mpr ⟨later, by simpa using goes⟩
  · rw [lastSize_concat, size]
  · rcases concat_eq_stop split with ⟨rest', inside⟩ | ⟨rfl, last⟩
    · exact stops part rest' inside
    · rw [← size]
      exact untold last

/-- After a start there is an operation under way, unless a stop could tell its figures. -/
theorem underWay_or_told (before : List Event) (operation : String) (inputSize rules : Int)
    (after : List Event) :
    (∃ m, UnderWay (before ++ .start operation inputSize rules :: after) m) ∨
    ∃ part rest m, after = part ++ .stop :: rest ∧
      UnderWay (before ++ .start operation inputSize rules :: part) m ∧ m.isTellable = true := by
  induction after using List.reverseRecOn with
  | nil => exact Or.inl ⟨_, underWay_start before operation inputSize rules⟩
  | append_singleton after e ih =>
    rw [← List.cons_append, ← List.append_assoc]
    rcases ih with ⟨m, active⟩ | ⟨part, rest, m, rfl, active, told⟩
    · cases e with
      | start operation inputSize rules =>
        exact Or.inl ⟨_, underWay_start _ operation inputSize rules⟩
      | record | sample => exact Or.inl ⟨_, active.concat id nofun⟩
      | stop =>
        cases told : m.isTellable with
        | true => exact Or.inr ⟨after, [], m, rfl, active, told⟩
        | false => exact Or.inl ⟨_, active.concat id fun _ => told⟩
    · exact Or.inr ⟨part, rest ++ [e], m, by simp, active, told⟩

/-- From a start to the next stop there is an operation under way. -/
theorem exists_underWay (before : List Event) (operation : String) (inputSize rules : Int)
    {part : List Event} (going : .stop ∉ part) :
    ∃ m, UnderWay (before ++ .start operation inputSize rules :: part) m := by
  rcases underWay_or_told before operation inputSize rules part with active | ⟨_, _, _, rfl, _⟩
  · exact active
  · simp at going

end

/-! ## Hearing events -/

/-- A profiler after an event. -/
def hear (p : Profiler) : Event → Profiler
  | .start operation inputSize rules => p.start operation inputSize rules
  | .record n => p.record n
  | .sample => p
  | .stop => p.stop.1

def hearAll (p : Profiler) (events : List Event) : Profiler := events.foldl hear p

theorem hearAll_cons (p : Profiler) (e : Event) (events : List Event) :
    p.hearAll (e :: events) = (p.hear e).hearAll events := rfl

theorem hearAll_append (p : Profiler) (events more : List Event) :
    p.hearAll (events ++ more) = (p.hearAll events).hearAll more := List.foldl_append

theorem hearAll_concat (p : Profiler) (events : List Event) (e : Event) :
    p.hearAll (events ++ [e]) = (p.hearAll events).hear e := hearAll_append p events [e]

/-- The record that a stop would make. -/
def session? (p : Profiler) : Option Measurement :=
  p.active?.map fun operation => ⟨operation, p.inputSize, p.outputSize, p.rules⟩

section
variable {p : Profiler} {m : Measurement}

theorem stop_of_session (h : p.session? = some m) :
    p.stop = if m.isTellable then ({ p with current := none, history := p.history ++ [m] }, .ok m)
      else ({ p with history := p.history ++ [m] }, .error Failure.unwritable) := by
  obtain ⟨operation, active, rfl⟩ := Option.map_eq_some_iff.mp h
  simp only [Profiler.stop, active]

theorem stop_of_no_session (h : p.session? = none) : p.stop = (p, .error inactive) := by
  simp only [Profiler.stop, Option.map_eq_none_iff.mp h]

/-- **What a stop records.** -/
theorem history_stop (p : Profiler) : p.stop.1.history = p.history ++ p.session?.toList := by
  cases session : p.session? with
  | none => simp [stop_of_no_session session]
  | some m =>
    rw [stop_of_session session]
    split <;> rfl

/-- **What a stop answers.** -/
theorem answer_stop (h : p.session? = some m) :
    p.stop.2 = if m.isTellable then .ok m else .error Failure.unwritable := by
  rw [stop_of_session h]
  split <;> rfl

/-- **What a stop leaves under way**: an operation whose figures it could not tell. -/
theorem session_stop (p : Profiler) :
    p.stop.1.session? = p.session?.filter fun m => !m.isTellable := by
  cases session : p.session? with
  | none => simp [stop_of_no_session session, session]
  | some m =>
    rw [stop_of_session session]
    cases told : m.isTellable with
    | true => simp [Option.filter_some, told, session?, active?]
    | false =>
      rw [Option.filter_some, told]
      exact session

/-- A stop fails without a record exactly when nothing is under way. -/
theorem stop_fails_iff :
    (p.stop.1.history = p.history ∧ ∃ e, p.stop.2 = .error e) ↔ p.session? = none := by
  constructor
  · rintro ⟨kept, _⟩
    rw [history_stop] at kept
    simpa using kept
  · intro session
    rw [stop_of_no_session session]
    exact ⟨rfl, _, rfl⟩

theorem session_start {operation : String} (named : operation ≠ "") (inputSize rules : Int) :
    (p.start operation inputSize rules).session? = some ⟨operation, inputSize, 0, rules⟩ := by
  simp [session?, active?, start, named]

theorem session_record (n : Int) :
    (p.record n).session? = p.session?.map fun m => { m with outputSize := n } := by
  simp only [session?, Option.map_map]
  rfl

theorem history_hear {e : Event} (goes : e ≠ .stop) : (p.hear e).history = p.history := by
  cases e with
  | stop => exact absurd rfl goes
  | _ => rfl

theorem history_hearAll {events : List Event} (going : .stop ∉ events) :
    (p.hearAll events).history = p.history := by
  induction events using List.reverseRecOn with
  | nil => rfl
  | append_singleton events e ih =>
    simp only [List.mem_append, List.mem_singleton, not_or] at going
    rw [hearAll_concat, history_hear (Ne.symm going.2), ih going.1]

end

/-! ## What is kept -/

section
variable {events : List Event}

/-- What a profiler would record is under way, whether or not all names were given. -/
theorem underWay_of_session {m : Measurement}
    (h : (hearAll {} events).session? = some m) : UnderWay events m := by
  induction events using List.reverseRecOn generalizing m with
  | nil => cases h
  | append_singleton events e ih =>
    rw [hearAll_concat] at h
    cases e with
    | start operation inputSize rules =>
      obtain ⟨name, active, rfl⟩ := Option.map_eq_some_iff.mp h
      obtain ⟨same, _⟩ := Option.filter_eq_some_iff.mp active
      cases same
      exact underWay_start events operation inputSize rules
    | record n =>
      rw [hear, session_record] at h
      obtain ⟨m, session, rfl⟩ := Option.map_eq_some_iff.mp h
      exact (ih session).concat id nofun
    | sample => exact (ih h).concat id nofun
    | stop =>
      rw [hear, session_stop] at h
      obtain ⟨session, untold⟩ := Option.filter_eq_some_iff.mp h
      exact (ih session).concat id fun _ => by simpa using untold

/-- Events that neither start an operation nor finish one leave the operation that was started, with
the size recorded last. -/
theorem session_of_going {p : Profiler} {operation : String} (named : operation ≠ "")
    (inputSize rules : Int) {after : List Event} (later : ∀ e ∈ after, ¬ e.IsStart)
    (untold : ∀ part rest, after = part ++ .stop :: rest →
      Measurement.isTellable ⟨operation, inputSize, lastSize part, rules⟩ = false) :
    ((p.start operation inputSize rules).hearAll after).session? =
      some ⟨operation, inputSize, lastSize after, rules⟩ := by
  induction after using List.reverseRecOn with
  | nil => exact session_start named inputSize rules
  | append_singleton after e ih =>
    obtain ⟨earlier, last⟩ := List.forall_mem_append.mp later
    have before := ih earlier fun part rest split => untold part (rest ++ [e]) (by simp [split])
    rw [hearAll_concat, lastSize_concat]
    cases e with
    | start => exact absurd trivial (last _ List.mem_cons_self)
    | record n =>
      rw [hear, session_record, before]
      rfl
    | sample => exact before
    | stop =>
      rw [hear, session_stop, before, Option.filter_some, untold after [] rfl]
      rfl

/-- **What a profiler would record next is the operation under way.** -/
theorem session_heard (named : ∀ e ∈ events, e.Named) (m : Measurement) :
    (hearAll {} events).session? = some m ↔ UnderWay events m := by
  refine ⟨underWay_of_session, ?_⟩
  rintro ⟨before, after, rfl, later, size, untold⟩
  have given : m.operation ≠ "" := named (.start m.operation m.inputSize m.rules) (by simp)
  rw [hearAll_append, hearAll_cons, hear, session_of_going given m.inputSize m.rules later untold,
    ← size]

theorem session_eq_none_iff (named : ∀ e ∈ events, e.Named) :
    (hearAll {} events).session? = none ↔ ∀ m, ¬ UnderWay events m := by
  rw [Option.eq_none_iff_forall_ne_some]
  exact forall_congr' fun m => not_congr (session_heard named m)

/-- **The history is what the events finish.** -/
theorem finishes_heard (named : ∀ e ∈ events, e.Named) (ms : List Measurement) :
    Finishes events ms ↔ (hearAll {} events).history = ms := by
  constructor
  · intro finishes
    induction finishes with
    | nothing => rfl
    | @stop events ms m _ active ih =>
      obtain ⟨given, _⟩ := List.forall_mem_append.mp named
      rw [hearAll_concat, hear, history_stop, (session_heard given m).mpr active, ih given]
      rfl
    | idle _ none ih =>
      obtain ⟨given, _⟩ := List.forall_mem_append.mp named
      rw [hearAll_concat, hear, history_stop, (session_eq_none_iff given).mpr none, ih given]
      exact List.append_nil _
    | other _ goes ih =>
      obtain ⟨given, _⟩ := List.forall_mem_append.mp named
      rw [hearAll_concat, history_hear goes, ih given]
  · rintro rfl
    induction events using List.reverseRecOn with
    | nil => exact .nothing
    | append_singleton events e ih =>
      obtain ⟨given, _⟩ := List.forall_mem_append.mp named
      rw [hearAll_concat]
      by_cases stops : e = .stop
      · subst stops
        rw [hear, history_stop]
        cases session : (hearAll {} events).session? with
        | none =>
          rw [Option.toList_none, List.append_nil]
          exact .idle (ih given) ((session_eq_none_iff given).mp session)
        | some m => exact .stop (ih given) ((session_heard given m).mp session)
      · rw [history_hear stops]
        exact .other (ih given) stops

/-- Every start among the events was followed by a stop that succeeded. -/
def AtRest (events : List Event) : Prop :=
  ∀ before after operation inputSize rules,
    events = before ++ .start operation inputSize rules :: after →
    ∃ part rest, after = part ++ .stop :: rest ∧ ∃ m,
      (hearAll {} (before ++ .start operation inputSize rules :: part)).stop.2 = .ok m

theorem atRest_iff (named : ∀ e ∈ events, e.Named) :
    AtRest events ↔ (hearAll {} events).session? = none := by
  rw [session_eq_none_iff named]
  constructor
  · rintro resting m ⟨before, after, rfl, later, _, untold⟩
    obtain ⟨part, rest, rfl, m', stopped⟩ := resting before after _ _ _ rfl
    -- The operation is still under way at that stop, which cannot tell its figures.
    have given : m.operation ≠ "" := named (.start m.operation m.inputSize m.rules) (by simp)
    have going := session_of_going (p := hearAll {} before) given m.inputSize m.rules
      (fun e mem => later e (List.mem_append_left _ mem))
      fun part' rest' inside => untold part' (rest' ++ .stop :: rest) (by simp [inside])
    rw [hearAll_append, hearAll_cons, hear, answer_stop going, untold part rest rfl] at stopped
    cases stopped
  · rintro inactive before after operation inputSize rules rfl
    rcases underWay_or_told before operation inputSize rules after with
      ⟨m, active⟩ | ⟨part, rest, m, rfl, active, told⟩
    · exact absurd active (inactive m)
    · have named' : ∀ e ∈ before ++ .start operation inputSize rules :: part, e.Named :=
        fun e mem => named e (by
          simp only [List.mem_append, List.mem_cons] at mem ⊢
          tauto)
      refine ⟨part, rest, rfl, m, ?_⟩
      rw [answer_stop ((session_heard named' m).mpr active), if_pos told]

end

/-! ## Steps -/

/-- What is done with a profiler: it is told something, or it profiles an operation whose body tells
it something and then ends in some way. -/
inductive Step where
  | event (e : Event)
  | profile (operation : String) (inputSize rules : Int) (body : List Event)
      (ended : Outcome Unit)

/-- What a profiler is told in a step. -/
def Step.events : Step → List Event
  | .event e => [e]
  | .profile operation inputSize rules body _ =>
    .start operation inputSize rules :: (body ++ [.stop])

def encloseEvents (p : Profiler) (operation : String) (inputSize rules : Int) (body : List Event)
    (ended : Outcome Unit) : Profiler × Outcome Unit :=
  p.enclose operation inputSize rules fun started => (started.hearAll body, ended)

def take (p : Profiler) : Step → Profiler
  | .event e => p.hear e
  | .profile operation inputSize rules body ended =>
    (p.encloseEvents operation inputSize rules body ended).1

/-- A profiler after steps in order. -/
def run (p : Profiler) (steps : List Step) : Profiler := steps.foldl take p

/-- Profiling a body is a start, what the body tells, and a stop. It ends as the body does if the
stop succeeds, and else as the stop does. -/
theorem encloseEvents_eq (p : Profiler) (operation : String) (inputSize rules : Int)
    (body : List Event) (ended : Outcome Unit) :
    p.encloseEvents operation inputSize rules body ended =
      (((p.start operation inputSize rules).hearAll body).hear .stop,
        ((p.start operation inputSize rules).hearAll body).stop.2 >>= fun _ => ended) := by
  simp only [encloseEvents, enclose, hear]
  rcases ((p.start operation inputSize rules).hearAll body).stop with ⟨after, answer⟩
  cases answer <;> rfl

theorem take_eq (p : Profiler) (s : Step) : p.take s = p.hearAll s.events := by
  cases s with
  | event e => rfl
  | profile operation inputSize rules body ended =>
    rw [take, encloseEvents_eq, Step.events, ← List.cons_append, hearAll_concat]
    rfl

/-- **Steps are the events of all of them.** -/
theorem run_eq (p : Profiler) (steps : List Step) :
    p.run steps = p.hearAll (steps.flatMap Step.events) := by
  induction steps generalizing p with
  | nil => rfl
  | cons s rest ih =>
    have first : p.run (s :: rest) = (p.take s).run rest := rfl
    rw [first, ih, take_eq, List.flatMap_cons, hearAll_append]

/-! ## Bodies -/

/-- A profiler with earlier records in front of its own. -/
def behind (p : Profiler) (ms : List Measurement) : Profiler := { p with history := ms ++ p.history }

theorem hear_behind (p : Profiler) (ms : List Measurement) (e : Event) :
    (p.behind ms).hear e = (p.hear e).behind ms := by
  cases e with
  | stop =>
    have same : (p.behind ms).session? = p.session? := rfl
    simp only [hear]
    cases session : p.session? with
    | none => rw [stop_of_no_session session, stop_of_no_session (same.trans session)]
    | some m =>
      rw [stop_of_session session, stop_of_session (same.trans session)]
      split <;> simp only [behind, List.append_assoc]
  | _ => rfl

theorem hearAll_behind (p : Profiler) (ms : List Measurement) (events : List Event) :
    (p.behind ms).hearAll events = (p.hearAll events).behind ms := by
  induction events generalizing p with
  | nil => rfl
  | cons e rest ih =>
    rw [hearAll_cons, hearAll_cons, hear_behind, ih]

section
variable {p : Profiler} {operation : String} {inputSize rules : Int} {body : List Event}

/-- A start leaves nothing of what came before but the history. -/
theorem hearAll_start (p : Profiler) (operation : String) (inputSize rules : Int)
    (body : List Event) :
    (p.start operation inputSize rules).hearAll body =
      (hearAll {} (.start operation inputSize rules :: body)).behind p.history := by
  have fresh : (hear {} (.start operation inputSize rules)).behind p.history =
      p.start operation inputSize rules := by
    simp only [hear, start, behind, List.append_nil]
  rw [hearAll_cons, ← hearAll_behind, fresh]

/-- What is under way after a body is told by the body alone. -/
theorem session_body
    (named : ∀ e ∈ (.start operation inputSize rules :: body), Event.Named e) (m : Measurement) :
    ((p.start operation inputSize rules).hearAll body).session? = some m ↔
      UnderWay (.start operation inputSize rules :: body) m := by
  rw [hearAll_start, ← session_heard named]
  rfl

/-- A profiled body adds the records that it makes, whatever was told before. -/
theorem finishes_enclosed
    (named : ∀ e ∈ (.start operation inputSize rules :: (body ++ [.stop])), Event.Named e)
    (ended : Outcome Unit) (ms : List Measurement) :
    Finishes (.start operation inputSize rules :: (body ++ [.stop])) ms ↔
      (p.encloseEvents operation inputSize rules body ended).1.history = p.history ++ ms := by
  have heard : (p.encloseEvents operation inputSize rules body ended).1 =
      (hearAll {} (.start operation inputSize rules :: (body ++ [.stop]))).behind p.history := by
    rw [encloseEvents_eq, ← hearAll_concat, hearAll_start]
  rw [finishes_heard named, heard]
  exact (List.append_right_inj p.history).symm

/-- A body that does not stop anything is recorded after it, and ends as it does unless the figures
of the record cannot be told. -/
theorem enclosed_of_going
    (named : ∀ e ∈ (.start operation inputSize rules :: body), Event.Named e)
    (going : .stop ∉ body) (ended : Outcome Unit) :
    ∃ m, UnderWay (.start operation inputSize rules :: body) m ∧
      (p.encloseEvents operation inputSize rules body ended).1.history = p.history ++ [m] ∧
      (p.encloseEvents operation inputSize rules body ended).2 =
        if m.isTellable then ended else .error Failure.unwritable := by
  obtain ⟨m, active⟩ := exists_underWay [] operation inputSize rules going
  have session := (session_body (p := p) named m).mpr active
  have kept : ((p.start operation inputSize rules).hearAll body).history = p.history :=
    history_hearAll going
  refine ⟨m, active, ?_, ?_⟩
  · rw [encloseEvents_eq, hear, history_stop, session, kept]
    rfl
  · rw [encloseEvents_eq, answer_stop session]
    split <;> rfl

/-- A profiled body leaves nothing under way exactly when the figures of what it is stopped with can
be told. -/
theorem idle_enclosed
    (named : ∀ e ∈ (.start operation inputSize rules :: body), Event.Named e)
    (ended : Outcome Unit) :
    (p.encloseEvents operation inputSize rules body ended).1.session? = none ↔
      ∀ m, UnderWay (.start operation inputSize rules :: body) m → m.isTellable = true := by
  rw [encloseEvents_eq, hear, session_stop, Option.filter_eq_none_iff]
  refine forall_congr' fun m => ?_
  rw [session_body named]
  simp

end

/-! ## What is shown -/

/-- A value that shows a record. -/
def Shows (m : Measurement) (v : Value) : Prop :=
  ∃ fields, v = .object fields ∧ Fields.get "operation_name" fields = .string m.operation ∧
    Fields.get "input_size" fields = .int m.inputSize ∧
    Fields.get "output_size" fields = .int m.outputSize ∧
    Fields.get "rules_applied" fields = .int m.rules

theorem shows_toFields (m : Measurement) : Shows m (.object m.toFields) :=
  ⟨_, rfl, rfl, rfl, rfl, rfl⟩

/-- The exported rows show the history, record by record. -/
theorem records_show {p : Profiler} (told : ∀ m ∈ p.history, m.isTellable = true) :
    ∃ rows, p.records = .ok (.list rows) ∧ List.Forall₂ Shows p.history rows := by
  refine ⟨_, if_pos (List.all_eq_true.mpr told), ?_⟩
  rw [List.forall₂_map_right_iff, List.forall₂_same]
  exact fun m _ => shows_toFields m

theorem summary_total (p : Profiler) :
    Fields.get "total_operations" p.summary = .int p.history.length := rfl

theorem summary_operations (p : Profiler) :
    Fields.get "operations" p.summary =
      if p.history = [] then .absent else .list (p.operations.map .string) := by
  cases history : p.history with
  | nil => simp [summary, history, Fields.get]
  | cons m rest => simp [summary, history, Fields.get]

end Recast.Profiler
