import LowLatencyTrading.LFQueue
import LowLatencyTrading.F64

/-!
# The asynchronous logger (`common/src/logging.rs`)

`Logger` hands entries to a background writer thread through an `LFQueue<LogEntry, 4096>` and
three atomic flags, `running`, `flush_requested` and `flush_complete`. Its owner's `log` calls
check the level and push, dropping the entry when the queue is full; `flush` raises
`flush_requested` and spins until the writer sets `flush_complete`; `drop` clears `running` and
joins the writer, which drains the queue once more before it returns.

The two threads are program counters over one shared state (`Logger`), and an interleaving is a
sequence of `Event`s, each one atomic access of one thread; the queue's `push` and `pop` are
whole steps, as `LFQueue` models them. The writer's `write_entry` appends the entry to
`written`, the text on stderr; its counters and backoff only delay it and are left out.

* **Nothing is lost, repeated or reordered** (`Reachable.written_then_queued`): in every
  interleaving, what the writer has written followed by what the queue holds is the list of
  entries `log` accepted, those whose level passed while fewer than 4096 entries waited.
* **`drop` returns, having written everything** (`drop_writes_all`): from every reachable state
  in `drop`, enough steps of the writer let the join return, and then every accepted entry has
  been written, in the order logged.
* **`flush` does not wait for the queue** (`flush_returns_early`): an entry logged just before
  `flush` can still be queued, unwritten, when `flush` returns, although `flush` is documented to
  block until all queued entries have been written. The writer may read `flush_requested` after
  its last empty `pop` and before it sees the new entry.
-/

namespace LowLatencyTrading

/-- `LogLevel`. -/
inductive LogLevel where
  | debug
  | info
  | warn
  | error
  deriving DecidableEq, Repr

/-- The discriminant, which the derived order compares. -/
def LogLevel.toNat : LogLevel → Nat
  | debug => 0
  | info => 1
  | warn => 2
  | error => 3

/-- `LogMessage`; a `&'static str` is a `String`. -/
inductive LogMessage where
  | static (s : String)
  | staticWithI64 (s : String) (v : Int)
  | staticWithU64 (s : String) (v : Nat)
  | staticWithF64 (s : String) (v : F64)
  | formatted (s : String)
  deriving DecidableEq, Repr

/-- `LogEntry`; the timestamp is `Nanos`. -/
structure LogEntry where
  timestamp : Nat
  level : LogLevel
  message : LogMessage
  deriving DecidableEq, Repr

/-- The queue of `LoggerShared`. -/
abbrev LogQueue := LFQueue LogEntry 4096

/-- Where the writer thread is in `writer_loop`. -/
inductive WriterPc where
  /-- At `while shared.running.load(..)`. -/
  | loop
  /-- At the loop's `while let Some(entry) = shared.queue.pop()`. -/
  | drain
  /-- At `if shared.flush_requested.load(..)`. -/
  | checkFlush
  /-- At `shared.flush_complete.store(true, ..)`. -/
  | completeFlush
  /-- At the drain after the loop. -/
  | finalDrain
  /-- Returned. -/
  | done
  deriving DecidableEq, Repr

/-- Where the thread that owns the `Logger` is. -/
inductive OwnerPc where
  /-- Between calls. -/
  | idle
  /-- In `flush`, at `flush_requested.store(true, ..)`. -/
  | flushRequest
  /-- In `flush`, spinning on `flush_complete`. -/
  | flushWait
  /-- In `flush`, at `flush_requested.store(false, ..)`. -/
  | flushClear
  /-- In `drop`, at `handle.join()`. -/
  | join
  /-- `drop` has returned. -/
  | dropped
  deriving DecidableEq, Repr

/-- `Logger` with its `LoggerShared`, the two threads' places, and what stderr holds. -/
structure Logger where
  queue : LogQueue
  running : Bool
  flushRequested : Bool
  flushComplete : Bool
  minLevel : LogLevel
  writer : WriterPc
  owner : OwnerPc
  written : List LogEntry

namespace Logger

/-- `Logger::with_level`: the queue is `LFQueue::new()`, whose assertion holds for 4096
(`LFQueue.new_eq_some`), and the writer thread starts at its loop. -/
def withLevel (minLevel : LogLevel) : Logger :=
  ⟨⟨fun _ => none, 0, 0⟩, true, false, false, minLevel, .loop, .idle, []⟩

/-- `Logger::new`. -/
def new : Logger := withLevel .debug

/-! ## The owner's calls -/

/-- The body of `log` and its siblings: the entry stamped `now`, pushed unless its level is
below `min_level`; when the queue is full, `push` hands it back and it is dropped. -/
def logMessage (s : Logger) (level : LogLevel) (message : LogMessage) (now : Nat) : Logger :=
  if level.toNat < s.minLevel.toNat then s
  else { s with queue := (s.queue.push ⟨now, level, message⟩).2 }

/-- `Logger::log`. -/
def log (s : Logger) (level : LogLevel) (msg : String) (now : Nat) : Logger :=
  s.logMessage level (.static msg) now

/-- `Logger::log_with_i64`. -/
def logWithI64 (s : Logger) (level : LogLevel) (msg : String) (value : Int) (now : Nat) :
    Logger :=
  s.logMessage level (.staticWithI64 msg value) now

/-- `Logger::log_with_u64`. -/
def logWithU64 (s : Logger) (level : LogLevel) (msg : String) (value : Nat) (now : Nat) :
    Logger :=
  s.logMessage level (.staticWithU64 msg value) now

/-- `Logger::log_with_f64`. -/
def logWithF64 (s : Logger) (level : LogLevel) (msg : String) (value : F64) (now : Nat) :
    Logger :=
  s.logMessage level (.staticWithF64 msg value) now

/-- `Logger::log_with_value`, given the `Display` text of the value. -/
def logWithValue (s : Logger) (level : LogLevel) (msg : String) (value : String) (now : Nat) :
    Logger :=
  s.logMessage level (.formatted (msg ++ ": " ++ value)) now

/-- `Logger::set_level`. -/
def setLevel (s : Logger) (level : LogLevel) : Logger := { s with minLevel := level }

/-- `Logger::flush`, its first store: `flush_complete.store(false, ..)`. -/
def flush (s : Logger) : Logger := { s with flushComplete := false, owner := .flushRequest }

/-- `Drop for Logger`, its first store: `running.store(false, ..)`. -/
def drop (s : Logger) : Logger := { s with running := false, owner := .join }

/-- A call the owner makes between calls. -/
inductive Call where
  | log (level : LogLevel) (message : LogMessage) (now : Nat)
  | flush
  | setLevel (level : LogLevel)
  | drop

/-- The first step of a call. -/
def call (s : Logger) : Call → Logger
  | .log level message now => s.logMessage level message now
  | .flush => s.flush
  | .setLevel level => s.setLevel level
  | .drop => s.drop

/-- The owner's next step inside `flush` or `drop`: the rest of `flush`, and the join, which
returns once the writer has. -/
def ownerStep (s : Logger) : Logger :=
  match s.owner with
  | .flushRequest => { s with flushRequested := true, owner := .flushWait }
  | .flushWait => if s.flushComplete then { s with owner := .flushClear } else s
  | .flushClear => { s with flushRequested := false, owner := .idle }
  | .join => if s.writer = .done then { s with owner := .dropped } else s
  | .idle | .dropped => s

/-- `writer_loop`, one atomic access at a time; a popped entry is written at once. -/
def writerStep (s : Logger) : Logger :=
  match s.writer with
  | .loop => { s with writer := if s.running then .drain else .finalDrain }
  | .drain =>
    match s.queue.pop with
    | (some entry, queue) => { s with queue := queue, written := s.written ++ [entry] }
    | (none, queue) => { s with queue := queue, writer := .checkFlush }
  | .checkFlush => { s with writer := if s.flushRequested then .completeFlush else .loop }
  | .completeFlush => { s with flushComplete := true, writer := .loop }
  | .finalDrain =>
    match s.queue.pop with
    | (some entry, queue) => { s with queue := queue, written := s.written ++ [entry] }
    | (none, queue) => { s with queue := queue, writer := .done }
  | .done => s

/-- One step of either thread. A call starts only between calls. -/
inductive Event where
  | call (c : Call)
  | owner
  | writer

/-- One step of an interleaving. -/
def step (s : Logger) : Event → Logger
  | .call c => if s.owner = .idle then s.call c else s
  | .owner => s.ownerStep
  | .writer => s.writerStep

/-- An interleaving. -/
def run (s : Logger) (events : List Event) : Logger := events.foldl step s

@[simp] theorem run_nil (s : Logger) : s.run [] = s := rfl

@[simp] theorem run_cons (s : Logger) (e : Event) (events : List Event) :
    s.run (e :: events) = (s.step e).run events := rfl

theorem run_append (s : Logger) (es es' : List Event) : s.run (es ++ es') = (s.run es).run es' :=
  List.foldl_append _ _ _ _

/-! ## What is accepted -/

/-- The entry a step puts on the queue: a `log` call whose level passes while fewer than 4096
entries wait. -/
def accepts (s : Logger) : Event → List LogEntry
  | .call (.log level message now) =>
    if s.owner = .idle ∧ s.minLevel.toNat ≤ level.toNat ∧ s.queue.len < 4096 then
      [⟨now, level, message⟩]
    else []
  | _ => []

/-- The states of every interleaving from `with_level`, with the entries accepted so far. -/
inductive Reachable : Logger → List LogEntry → Prop
  | new (minLevel : LogLevel) : Reachable (withLevel minLevel) []
  | step {s : Logger} {acc : List LogEntry} (e : Event) :
      Reachable s acc → Reachable (s.step e) (acc ++ s.accepts e)

/-- What every interleaving keeps: stderr and the queue together hold the accepted entries in
order; `running` is cleared only by `drop`, and only after it does the writer leave its loop;
a returned writer has written everything, and the join returns only after the writer has. -/
structure Inv (s : Logger) (acc : List LogEntry) : Prop where
  queue : ∃ xs, s.queue.Refines xs ∧ s.written ++ xs = acc
  stopped : s.running = false ↔ s.owner = .join ∨ s.owner = .dropped
  draining : s.writer = .finalDrain ∨ s.writer = .done → s.running = false
  done : s.writer = .done → s.written = acc
  joined : s.owner = .dropped → s.writer = .done

theorem inv_withLevel (minLevel : LogLevel) : Inv (withLevel minLevel) [] where
  queue := ⟨[], by simpa using LFQueue.new_refines (LFQueue.new_eq_some ⟨12, rfl⟩), rfl⟩
  stopped := by simp [withLevel]
  draining := by simp [withLevel]
  done := by simp [withLevel]
  joined := by simp [withLevel]

section Steps

variable {s : Logger} {acc : List LogEntry}

theorem capacity_lt : (4096 : Nat) < 2 ^ 64 := by norm_num

theorem capacity_pow : ∃ k, (4096 : Nat) = 2 ^ k := ⟨12, rfl⟩

/-- Between calls, the writer is in its loop. -/
theorem Inv.running (h : Inv s acc) (ho : s.owner = .idle) :
    s.running = true ∧ s.writer ≠ .finalDrain ∧ s.writer ≠ .done := by
  have hr : s.running = true := by simpa [ho] using h.stopped
  exact ⟨hr, fun e => by simp [h.draining (.inl e)] at hr,
    fun e => by simp [h.draining (.inr e)] at hr⟩

/-- A `log` call between calls: the queue holds the accepted entry after the others. -/
theorem Inv.logMessage (h : Inv s acc) (ho : s.owner = .idle) (level : LogLevel)
    (message : LogMessage) (now : Nat) :
    Inv (s.logMessage level message now) (acc ++ s.accepts (.call (.log level message now))) := by
  obtain ⟨xs, hr, hw⟩ := h.queue
  obtain ⟨-, hr'⟩ := hr.push capacity_lt capacity_pow ⟨now, level, message⟩
  have hd := (h.running ho).2.2
  simp only [accepts, ho, true_and, hr.len_eq]
  unfold Logger.logMessage
  split_ifs with hl hc hc
  · omega
  · simpa using h
  · simp only [BoundedFifo.push, if_pos hc.2] at hr'
    exact ⟨⟨_, hr', by rw [← hw, List.append_assoc]⟩, h.stopped, h.draining, (absurd · hd),
      h.joined⟩
  · simp only [BoundedFifo.push, if_neg (by omega : ¬xs.length < 4096)] at hr'
    exact ⟨⟨_, hr', by rw [hw, List.append_nil]⟩, h.stopped, h.draining, (absurd · hd),
      h.joined⟩

/-- The first step of a call between calls. -/
theorem Inv.call (h : Inv s acc) (ho : s.owner = .idle) (c : Call) :
    Inv (s.call c) (acc ++ s.accepts (.call c)) := by
  obtain ⟨hr, hf, hd⟩ := h.running ho
  cases c with
  | log level message now => exact h.logMessage ho level message now
  | flush =>
    simp only [Logger.call, Logger.flush, accepts, List.append_nil]
    exact ⟨h.queue, by simp [hr], fun e => (e.elim hf hd).elim, (absurd · hd), by simp⟩
  | setLevel level =>
    simp only [Logger.call, Logger.setLevel, accepts, List.append_nil]
    exact ⟨h.queue, h.stopped, h.draining, h.done, h.joined⟩
  | drop =>
    simp only [Logger.call, Logger.drop, accepts, List.append_nil]
    exact ⟨h.queue, by simp, fun _ => rfl, h.done, by simp⟩

theorem Inv.ownerStep (h : Inv s acc) : Inv s.ownerStep acc := by
  obtain ⟨hq, hs, hd, hdone, hj⟩ := h
  unfold Logger.ownerStep
  split <;> (try split_ifs) <;>
    first
    | exact ⟨hq, hs, hd, hdone, hj⟩
    | exact ⟨hq, by simp_all, hd, hdone, by simp_all⟩

theorem Inv.writerStep (h : Inv s acc) : Inv s.writerStep acc := by
  obtain ⟨⟨xs, hr, hw⟩, hs, hd, hdone, hj⟩ := h
  obtain ⟨hp, hr'⟩ := hr.pop capacity_lt capacity_pow
  unfold Logger.writerStep
  split
  case h_1 | h_3 | h_4 =>
    (try split_ifs) <;> exact ⟨⟨xs, hr, hw⟩, hs, by simp_all, by simp_all, by simp_all⟩
  case h_6 => exact ⟨⟨xs, hr, hw⟩, hs, hd, hdone, hj⟩
  all_goals
    rcases hpop : s.queue.pop with ⟨_ | e, q⟩ <;> rw [hpop] at hp hr' <;>
      cases xs <;> simp only [BoundedFifo.pop, List.head?_nil, List.head?_cons, List.tail_nil,
        List.tail_cons, reduceCtorEq, Option.some.injEq] at hp hr' ⊢
  all_goals exact ⟨⟨_, hr', by simp_all⟩, hs, by simp_all, by simp_all, by simp_all⟩

theorem Inv.step (h : Inv s acc) (e : Event) : Inv (s.step e) (acc ++ s.accepts e) := by
  cases e with
  | call c =>
    by_cases ho : s.owner = .idle
    · simpa only [Logger.step, if_pos ho] using h.call ho c
    · have hn : s.accepts (.call c) = [] := by cases c <;> simp [accepts, ho]
      simpa only [Logger.step, if_neg ho, hn, List.append_nil] using h
  | owner => simpa only [Logger.step, accepts, List.append_nil] using h.ownerStep
  | writer => simpa only [Logger.step, accepts, List.append_nil] using h.writerStep

end Steps

theorem Reachable.inv {s : Logger} {acc : List LogEntry} (h : Reachable s acc) : Inv s acc := by
  induction h with
  | new minLevel => exact inv_withLevel minLevel
  | step e _ ih => exact ih.step e

/-- **Nothing is lost, repeated or reordered.** In every interleaving of the owner's calls with
the writer thread, stderr holds a prefix of the entries `log` accepted, in the order accepted,
and the queue holds the rest. -/
theorem Reachable.written_then_queued {s : Logger} {acc : List LogEntry} (h : Reachable s acc) :
    ∃ xs, s.queue.Refines xs ∧ s.written ++ xs = acc :=
  h.inv.queue

theorem two_logged_one_written :
    let s := (((new.step (.call (.log .info (.static "order sent") 1))).step
      (.call (.log .warn (.static "order rejected") 2))).step .writer).step .writer
    ∃ xs, s.queue.Refines xs ∧
      s.written ++ xs =
        [⟨1, .info, .static "order sent"⟩, ⟨2, .warn, .static "order rejected"⟩] :=
  Reachable.written_then_queued (((((Reachable.new .debug).step _).step _).step _).step _)

/-! ## `drop` returns -/

/-- The places the writer passes once `running` is clear, numbered down to `done`. -/
def writerRank : WriterPc → Nat
  | .done => 0
  | .finalDrain => 1
  | .loop => 2
  | .completeFlush => 3
  | .checkFlush => 4
  | .drain => 5

/-- How far the writer is from returning once `running` is clear. -/
def writerLeft (s : Logger) : Nat := s.queue.len * 6 + writerRank s.writer

section Drop

variable {s : Logger} {acc : List LogEntry}

@[simp] theorem writerStep_running (s : Logger) : s.writerStep.running = s.running := by
  unfold Logger.writerStep; split <;> (try split) <;> rfl

@[simp] theorem writerStep_owner (s : Logger) : s.writerStep.owner = s.owner := by
  unfold Logger.writerStep; split <;> (try split) <;> rfl

@[simp] theorem ownerStep_written (s : Logger) : s.ownerStep.written = s.written := by
  unfold Logger.ownerStep; split <;> (try split) <;> rfl

@[simp] theorem run_writers_owner (n : Nat) (s : Logger) :
    (s.run (List.replicate n .writer)).owner = s.owner := by
  induction n generalizing s with
  | zero => rfl
  | succ n ih => rw [List.replicate_succ, run_cons, ih, step, writerStep_owner]

theorem Inv.run_writers (h : Inv s acc) (n : Nat) : Inv (s.run (List.replicate n .writer)) acc := by
  induction n generalizing s with
  | zero => exact h
  | succ n ih => exact ih h.writerStep

/-- With `running` clear, each step of a writer that has not returned brings it closer. -/
theorem Inv.writerLeft_lt (h : Inv s acc) (hr : s.running = false) (hw : s.writer ≠ .done) :
    s.writerStep.writerLeft < s.writerLeft := by
  obtain ⟨xs, hq, -⟩ := h.queue
  obtain ⟨hp, hq'⟩ := hq.pop capacity_lt capacity_pow
  have hl := hq.len_eq
  unfold Logger.writerStep writerLeft
  split
  case h_2 | h_5 =>
    rcases hpop : s.queue.pop with ⟨_ | e, q⟩ <;> rw [hpop] at hp hq' <;> cases xs <;>
      simp only [BoundedFifo.pop, List.head?_nil, List.head?_cons, List.tail_nil, reduceCtorEq,
        List.tail_cons] at hp hq' ⊢ <;>
      simp_all [hq'.len_eq, writerRank]
  all_goals (try split_ifs) <;> simp_all [writerRank]

theorem Inv.writerLeft_done (h : Inv s acc) (hw : s.writer = .done) : s.writerLeft = 0 := by
  obtain ⟨xs, hq, hxs⟩ := h.queue
  rw [h.done hw, List.append_right_eq_self] at hxs
  simp only [writerLeft, hq.len_eq, hxs, hw, writerRank, List.length_nil]

/-- With `running` clear, `writerLeft` steps of the writer take it to its return. -/
theorem Inv.run_writers_done (h : Inv s acc) (hr : s.running = false) (n : Nat)
    (hn : s.writerLeft ≤ n) : (s.run (List.replicate n .writer)).writer = .done := by
  induction n generalizing s with
  | zero => cases hw : s.writer <;> simp_all [writerLeft, writerRank]
  | succ n ih =>
    rw [List.replicate_succ, run_cons]
    by_cases hw : s.writer = .done
    · have hs : s.step .writer = s := by simp only [Logger.step, Logger.writerStep, hw]
      rw [hs]
      exact ih h hr (by rw [h.writerLeft_done hw]; exact Nat.zero_le _)
    · have hl := h.writerLeft_lt hr hw
      show (s.writerStep.run _).writer = _
      exact ih h.writerStep (by rw [writerStep_running, hr]) (by omega)

end Drop

/-- **`drop` returns, having written everything.** From every reachable state in which the owner
is joining the writer, `writerLeft` steps of the writer and one of the owner let the join
return, and then stderr holds every entry `log` accepted, in the order accepted. -/
theorem drop_writes_all {s : Logger} {acc : List LogEntry} (h : Reachable s acc)
    (ho : s.owner = .join) :
    (s.run (List.replicate s.writerLeft .writer ++ [.owner])).owner = .dropped ∧
      (s.run (List.replicate s.writerLeft .writer ++ [.owner])).written = acc := by
  have hi := h.inv
  have hd := hi.run_writers_done (hi.stopped.mpr (.inl ho)) _ le_rfl
  have hw := (hi.run_writers s.writerLeft).done hd
  rw [run_append, run_cons, run_nil]
  simp only [Logger.step, ownerStep_written, hw, Logger.ownerStep, run_writers_owner, ho, hd,
    if_true, and_true]

theorem drop_after_two_logs_writes_both :
    let s := ((new.step (.call (.log .info (.static "order sent") 1))).step
      (.call (.log .warn (.static "order rejected") 2))).step (.call .drop)
    (s.run (List.replicate s.writerLeft .writer ++ [.owner])).owner = .dropped ∧
      (s.run (List.replicate s.writerLeft .writer ++ [.owner])).written =
        [⟨1, .info, .static "order sent"⟩, ⟨2, .warn, .static "order rejected"⟩] :=
  drop_writes_all ((((Reachable.new .debug).step _).step _).step _) rfl


/-! ## `flush` -/

/-- The interleaving of `flush_returns_early`: the owner logs and flushes, the writer reads the
request before it pops again, and the owner sees `flush_complete` and returns. -/
def logThenFlush (level : LogLevel) (message : LogMessage) (now : Nat) : List Event :=
  [.call (.log level message now), .call .flush, .owner, .writer, .writer, .owner, .owner]

/-- **`flush` does not wait for the queue.** From every reachable state in which the writer has
just found the queue empty and the owner is between calls, an entry that `log` accepts just
before `flush` is still queued, and stderr unchanged, when that `flush` returns, if the writer
reads `flush_requested` before it pops again. -/
theorem flush_returns_early {s : Logger} {acc : List LogEntry} (h : Reachable s acc)
    (hw : s.writer = .checkFlush) (ho : s.owner = .idle) {level : LogLevel}
    {message : LogMessage} {now : Nat} (hl : s.minLevel.toNat ≤ level.toNat)
    (hq : s.queue.len < 4096) :
    (s.run (logThenFlush level message now)).owner = .idle ∧
      (s.run (logThenFlush level message now)).written = s.written ∧
      ∃ xs, (s.run (logThenFlush level message now)).queue.Refines
        (xs ++ [⟨now, level, message⟩]) := by
  obtain ⟨xs, hr, -⟩ := h.inv.queue
  obtain ⟨-, hr'⟩ := hr.push capacity_lt capacity_pow ⟨now, level, message⟩
  rw [hr.len_eq] at hq
  simp only [BoundedFifo.push, if_pos hq] at hr'
  simp only [logThenFlush, run_cons, run_nil, Logger.step, ho, if_true, Logger.call,
    Logger.logMessage, if_neg (Nat.not_lt.mpr hl), Logger.flush, Logger.ownerStep,
    Logger.writerStep, hw, reduceCtorEq, if_false, true_and]
  exact ⟨xs, hr'⟩

theorem flush_after_log_returns_early :
    let s := ((new.step .writer).step .writer).run (logThenFlush .info (.static "order sent") 7)
    s.owner = .idle ∧ s.written = [] ∧
      ∃ xs, s.queue.Refines (xs ++ [⟨7, .info, .static "order sent"⟩]) :=
  flush_returns_early (((Reachable.new .debug).step .writer).step .writer) rfl rfl (by decide)
    (by decide)

end Logger

end LowLatencyTrading
