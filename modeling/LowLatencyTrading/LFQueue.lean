import LowLatencyTrading.Basic

/-!
# The SPSC ring (`common/src/lf_queue.rs`)

`LFQueue<T, N>` holds `N` slots and two 64-bit counters: `tail`, written by the producer, and
`head`, written by the consumer. Slot `i` is `buffer[i & (N - 1)]`. Both counters only advance,
by `wrapping_add(1)`, so a long enough run takes them past `usize::MAX`.

An operation here is applied whole: this is the queue as any interleaving of the producer's
pushes and the consumer's pops sees it, each call taking effect at once.

The abstract model is a bounded FIFO list (`BoundedFifo`). `Refines q xs` relates a ring to the
list it holds: the distance `tail - head` (mod `2^64`) is the list's length, and the slots
from `head` on hold the list. Each operation keeps `Refines` and answers as the list does
(`Refines.push`, `Refines.pop`), so every run of the ring is a run of the list
(`Refines.run`).
-/

namespace LowLatencyTrading

/-- `usize::is_power_of_two`. -/
def isPowerOfTwo (n : Nat) : Bool := n == 2 ^ n.log2

theorem isPowerOfTwo_iff {n : Nat} : isPowerOfTwo n = true ↔ ∃ k, n = 2 ^ k := by
  simp only [isPowerOfTwo, beq_iff_eq]
  exact ⟨fun h => ⟨_, h⟩, by rintro ⟨k, rfl⟩; rw [Nat.log2_two_pow]⟩

/-- An operation on the queue, from the producer (`push`) or the consumer (`pop`). -/
inductive QueueOp (α : Type) where
  | push (item : α)
  | pop

/-- What an operation returns: `Result<(), T>` for `push`, `Option<T>` for `pop`. -/
inductive QueueReply (α : Type) where
  | push (result : Except α Unit)
  | pop (result : Option α)

/-- `LFQueue<T, N>`. -/
structure LFQueue (α : Type) (N : Nat) where
  /-- `buffer`: the slots; `none` is a slot never written. -/
  buffer : Nat → Option α
  /-- `writer.tail`: where the producer writes next. -/
  tail : Nat
  /-- `reader.head`: where the consumer reads next. -/
  head : Nat

namespace LFQueue

variable {α : Type} {N : Nat}

/-- `LFQueue::MASK`. -/
def mask (N : Nat) : Nat := N - 1

/-- `LFQueue::new`; `none` where its `assert!` panics. -/
def new : Option (LFQueue α N) :=
  if 0 < N ∧ isPowerOfTwo N = true then some ⟨fun _ => none, 0, 0⟩ else none

/-- `LFQueue::push`: `Err(item)` when `tail - head ≥ N`, the queue left as it was. -/
def push (q : LFQueue α N) (item : α) : Except α Unit × LFQueue α N :=
  if N ≤ usizeSub q.tail q.head then (.error item, q)
  else (.ok (), { q with buffer := Function.update q.buffer (q.tail &&& mask N) (some item),
                         tail := usizeAdd q.tail 1 })

/-- `LFQueue::pop`: the slot is read and left as it is. -/
def pop (q : LFQueue α N) : Option α × LFQueue α N :=
  if q.head = q.tail then (none, q)
  else (q.buffer (q.head &&& mask N), { q with head := usizeAdd q.head 1 })

/-- `LFQueue::len`. -/
def len (q : LFQueue α N) : Nat := usizeSub q.tail q.head

/-- `LFQueue::is_empty`. -/
def isEmpty (q : LFQueue α N) : Bool := q.len == 0

/-- `LFQueue::is_full`. -/
def isFull (q : LFQueue α N) : Bool := decide (N ≤ q.len)

/-- One call. -/
def step (q : LFQueue α N) : QueueOp α → QueueReply α × LFQueue α N
  | .push x => (.push (q.push x).1, (q.push x).2)
  | .pop => (.pop q.pop.1, q.pop.2)

/-- A sequence of calls, with the reply to each. -/
def run (q : LFQueue α N) : List (QueueOp α) → List (QueueReply α) × LFQueue α N
  | [] => ([], q)
  | op :: ops => ((q.step op).1 :: ((q.step op).2.run ops).1, ((q.step op).2.run ops).2)

end LFQueue

/-! ## The abstract queue -/

namespace BoundedFifo

variable {α : Type} (N : Nat)

/-- Append when fewer than `N` elements are held; otherwise hand the element back. -/
def push (xs : List α) (x : α) : Except α Unit × List α :=
  if xs.length < N then (.ok (), xs ++ [x]) else (.error x, xs)

/-- Remove and return the first element, if any. -/
def pop (xs : List α) : Option α × List α := (xs.head?, xs.tail)

/-- One call. -/
def step (xs : List α) : QueueOp α → QueueReply α × List α
  | .push x => (.push (push N xs x).1, (push N xs x).2)
  | .pop => (.pop (pop xs).1, (pop xs).2)

/-- A sequence of calls, with the reply to each. -/
def run (xs : List α) : List (QueueOp α) → List (QueueReply α) × List α
  | [] => ([], xs)
  | op :: ops => ((step N xs op).1 :: (run (step N xs op).2 ops).1, (run (step N xs op).2 ops).2)

end BoundedFifo

/-! ## Refinement -/

namespace LFQueue

variable {α : Type} {N : Nat}

/-- The ring `q` holds the list `xs`. -/
structure Refines (q : LFQueue α N) (xs : List α) : Prop where
  head_lt : q.head < 2 ^ 64
  tail_lt : q.tail < 2 ^ 64
  len_eq : q.len = xs.length
  length_le : xs.length ≤ N
  slots : ∀ i (h : i < xs.length), q.buffer ((q.head + i) % N) = some xs[i]

theorem new_refines {q : LFQueue α N} (h : new = some q) : q.Refines [] := by
  simp only [new] at h
  split at h
  · cases h
    exact ⟨Nat.two_pow_pos _, Nat.two_pow_pos _, by simp [len, usizeSub], Nat.zero_le _, by simp⟩
  · cases h

theorem new_eq_some (hpow : ∃ k, N = 2 ^ k) :
    (new : Option (LFQueue α N)) = some ⟨fun _ => none, 0, 0⟩ := by
  obtain ⟨k, rfl⟩ := hpow
  simp only [new, if_pos (And.intro (Nat.two_pow_pos k) (isPowerOfTwo_iff.mpr ⟨k, rfl⟩))]

theorem new_isPowerOfTwo {q : LFQueue α N} (h : new = some q) : ∃ k, N = 2 ^ k := by
  simp only [new] at h
  split at h
  · exact isPowerOfTwo_iff.mp ‹_ ∧ _›.2
  · cases h

section Ring

variable (hN : N < 2 ^ 64) (hpow : ∃ k, N = 2 ^ k)
include hN hpow

/-- Reducing mod `2^64` first does not change a slot: `N` divides `2^64`. -/
theorem mod_usize_mod (x : Nat) : x % 2 ^ 64 % N = x % N := by
  obtain ⟨k, rfl⟩ := hpow
  have hk : k ≤ 64 := by
    by_contra hk
    have : 2 ^ 64 < 2 ^ k := Nat.pow_lt_pow_right (by decide) (by omega)
    omega
  exact Nat.mod_mod_of_dvd x (Nat.pow_dvd_pow 2 hk)

theorem mod_usize_add (a b : Nat) : (a % 2 ^ 64 + b) % N = (a + b) % N := by
  rw [Nat.add_mod, mod_usize_mod hN hpow, ← Nat.add_mod]

omit hN in
theorem and_mask (x : Nat) : x &&& mask N = x % N := by
  obtain ⟨k, rfl⟩ := hpow
  exact Nat.and_pow_two_sub_one_eq_mod x k

/-- The producer's slot is the one after the held elements. -/
theorem tail_mod {q : LFQueue α N} {xs : List α} (hr : q.Refines xs) :
    q.tail % N = (q.head + xs.length) % N := by
  have h := hr.len_eq
  simp only [len, usizeSub] at h
  have := hr.head_lt
  have := hr.tail_lt
  rcases (by omega : q.tail = q.head + xs.length ∨ q.tail + 2 ^ 64 = q.head + xs.length)
    with e | e
  · rw [e]
  · rw [← e, ← mod_usize_mod hN hpow (q.tail + 2 ^ 64), Nat.add_mod_right,
      mod_usize_mod hN hpow]

/-- **`push` refines the bounded FIFO.** -/
theorem Refines.push {q : LFQueue α N} {xs : List α} (hr : q.Refines xs) (x : α) :
    (q.push x).1 = (BoundedFifo.push N xs x).1 ∧
      (q.push x).2.Refines (BoundedFifo.push N xs x).2 := by
  have hlen := hr.len_eq
  simp only [len] at hlen
  by_cases hfull : N ≤ xs.length
  · simp only [LFQueue.push, BoundedFifo.push, hlen, if_pos hfull, if_neg (not_lt.mpr hfull),
      true_and]
    exact hr
  · have hlt : xs.length < N := by omega
    simp only [LFQueue.push, BoundedFifo.push, hlen, if_neg hfull, if_pos hlt, true_and]
    have htail := tail_mod hN hpow hr
    refine ⟨hr.head_lt, Nat.mod_lt _ (Nat.two_pow_pos _), ?_, by simp; omega, ?_⟩
    · have := hr.head_lt; have := hr.tail_lt
      simp only [len, usizeSub, usizeAdd, List.length_append, List.length_singleton] at hlen ⊢
      omega
    · intro i hi
      dsimp only
      rw [and_mask hpow, htail]
      simp only [List.length_append, List.length_singleton] at hi
      rcases Nat.lt_succ_iff_lt_or_eq.mp hi with hi | rfl
      · have hne : (q.head + i) % N ≠ (q.head + xs.length) % N := by
          intro e
          have h0 := Nat.sub_mod_eq_zero_of_mod_eq e.symm
          rw [Nat.mod_eq_of_lt (by omega)] at h0
          omega
        rw [Function.update_noteq hne, hr.slots i hi, List.getElem_append_left hi]
      · simp

/-- **`pop` refines the bounded FIFO.** -/
theorem Refines.pop {q : LFQueue α N} {xs : List α} (hr : q.Refines xs) :
    q.pop.1 = (BoundedFifo.pop xs).1 ∧ q.pop.2.Refines (BoundedFifo.pop xs).2 := by
  have hlen := hr.len_eq
  have := hr.head_lt
  have := hr.tail_lt
  simp only [len, usizeSub] at hlen
  cases xs with
  | nil =>
    have e : q.head = q.tail := by simp at hlen; omega
    simp only [LFQueue.pop, BoundedFifo.pop, if_pos e, List.head?_nil, List.tail_nil, true_and]
    exact hr
  | cons y ys =>
    have e : q.head ≠ q.tail := by simp at hlen; omega
    simp only [LFQueue.pop, BoundedFifo.pop, if_neg e, List.head?_cons, List.tail_cons]
    refine ⟨by simpa [and_mask hpow] using hr.slots 0 (by simp), Nat.mod_lt _ (Nat.two_pow_pos _),
      hr.tail_lt, ?_, by have := hr.length_le; simp at this; omega, ?_⟩
    · simp only [len, usizeSub, usizeAdd, List.length_cons] at hlen ⊢
      omega
    · intro i hi
      have := hr.slots (i + 1) (by simp; omega)
      simp only [List.getElem_cons_succ] at this
      dsimp only
      rw [usizeAdd, mod_usize_add hN hpow, Nat.add_assoc, Nat.add_comm 1 i]
      exact this

theorem Refines.step {q : LFQueue α N} {xs : List α} (hr : q.Refines xs) (op : QueueOp α) :
    (q.step op).1 = (BoundedFifo.step N xs op).1 ∧
      (q.step op).2.Refines (BoundedFifo.step N xs op).2 := by
  cases op with
  | push x =>
    obtain ⟨h₁, h₂⟩ := hr.push hN hpow x
    exact ⟨by simp only [LFQueue.step, BoundedFifo.step, h₁], h₂⟩
  | pop =>
    obtain ⟨h₁, h₂⟩ := hr.pop hN hpow
    exact ⟨by simp only [LFQueue.step, BoundedFifo.step, h₁], h₂⟩

/-- **Every run of the ring is a run of the bounded FIFO**: the same replies, and the final
ring holds the final list. -/
theorem Refines.run {q : LFQueue α N} {xs : List α} (hr : q.Refines xs) (ops : List (QueueOp α)) :
    (q.run ops).1 = (BoundedFifo.run N xs ops).1 ∧
      (q.run ops).2.Refines (BoundedFifo.run N xs ops).2 := by
  induction ops generalizing q xs with
  | nil => exact ⟨rfl, hr⟩
  | cons op ops ih =>
    obtain ⟨h₁, h₂⟩ := hr.step hN hpow op
    obtain ⟨h₃, h₄⟩ := ih h₂
    exact ⟨by simp only [LFQueue.run, BoundedFifo.run, h₁, h₃], h₄⟩

end Ring

/-- The observers read the held list off a refining ring. -/
theorem Refines.observers {q : LFQueue α N} {xs : List α} (hr : q.Refines xs) :
    q.len = xs.length ∧ (q.isEmpty = true ↔ xs = []) ∧ (q.isFull = true ↔ xs.length = N) := by
  have := hr.length_le
  refine ⟨hr.len_eq, ?_, ?_⟩
  · simp [isEmpty, hr.len_eq]
  · simp only [isFull, hr.len_eq, decide_eq_true_eq]; omega

/-- **The ring is a bounded FIFO.** From `new`, any sequence of pushes and pops answers as the
bounded FIFO list of capacity `N` does, and the observers report that list's length,
emptiness and fullness; the counters may wrap past `usize::MAX` on the way. -/
theorem run_bounded_fifo (hN : N < 2 ^ 64) {q : LFQueue α N} (hq : new = some q)
    (ops : List (QueueOp α)) :
    (q.run ops).1 = (BoundedFifo.run N [] ops).1 ∧
      (q.run ops).2.len = (BoundedFifo.run N [] ops).2.length ∧
      ((q.run ops).2.isEmpty = true ↔ (BoundedFifo.run N [] ops).2 = []) ∧
      ((q.run ops).2.isFull = true ↔ (BoundedFifo.run N [] ops).2.length = N) := by
  obtain ⟨h₁, h₂⟩ := (new_refines hq).run hN (new_isPowerOfTwo hq) ops
  exact ⟨h₁, h₂.observers⟩

theorem run_bounded_fifo_four :
    (4 : Nat) < 2 ^ 64 ∧ (new : Option (LFQueue Nat 4)) = some ⟨fun _ => none, 0, 0⟩ ∧
      ((⟨fun _ => none, 0, 0⟩ : LFQueue Nat 4).run [.push 7, .pop]).2.len =
        (BoundedFifo.run 4 [] [QueueOp.push 7, .pop]).2.length :=
  ⟨by decide, new_eq_some ⟨2, rfl⟩,
    (run_bounded_fifo (by decide) (new_eq_some ⟨2, rfl⟩) [.push 7, .pop]).2.1⟩

end LFQueue

end LowLatencyTrading
