import LowLatencyTrading.Basic

/-!
# The slot pool (`common/src/mem_pool.rs`)

`MemPool<T, N>` owns `N` slots and a LIFO stack of free indices, `free_list[0..free_count]`.
`allocate` pops the top index and `deallocate` pushes one back; neither touches a slot's
contents, which stay until the next write.

The pool does not know which slots are handed out: that is the caller's ghost state, the list of
indices currently allocated. `Inv p allocated` says the stack holds exactly the other indices
below `N`, each once. `allocate` and `deallocate` keep it (`Inv.allocate`, `Inv.deallocate`),
writes to the storage do not touch it, and so it holds along every run of calls that returns
only allocated indices (`Reachable.inv`).
-/

namespace LowLatencyTrading

/-- `MemPool<T, N>`. -/
structure MemPool (α : Type) (N : Nat) where
  /-- `storage`: the slots; a slot keeps its last value after it is freed. -/
  storage : Nat → α
  /-- `free_list`: the stack of free indices, valid below `free_count`. -/
  freeList : Nat → Nat
  /-- `free_count`: the stack pointer, and the number of free slots. -/
  freeCount : Nat

namespace MemPool

variable {α : Type} {N : Nat}

/-- A pool with every slot free and its storage filled with `fill`. -/
def init (fill : α) : MemPool α N := ⟨fun _ => fill, fun i => i, N⟩

/-- `MemPool::new`, its storage left as `uninit`; `none` where `assert!(N > 0)` panics. -/
def new (uninit : α) : Option (MemPool α N) := if 0 < N then some (init uninit) else none

/-- `MemPool::new_boxed`, its storage zeroed; `none` where `assert!(N > 0)` panics. -/
def newBoxed (zeroed : α) : Option (MemPool α N) := if 0 < N then some (init zeroed) else none

/-- `MemPool::allocate`: pop the top of the free stack. -/
def allocate (p : MemPool α N) : Option (Nat × MemPool α N) :=
  if p.freeCount = 0 then none
  else some (p.freeList (p.freeCount - 1), { p with freeCount := p.freeCount - 1 })

/-- `MemPool::deallocate`: push `index` on the free stack. The write `free_list[free_count]`
is bounds-checked; on an allocated index the invariant keeps it in bounds
(`Inv.freeCount_lt`). -/
def deallocate (p : MemPool α N) (index : Nat) : MemPool α N :=
  { p with freeList := Function.update p.freeList p.freeCount index,
           freeCount := p.freeCount + 1 }

/-- Modelled from the spec: `MemPool::deallocate_by_index`, which `OrderBook::cancel_order`
calls and `mem_pool.rs` does not define. Spec §4.4 (cancel, step 4) returns the slot to the
pool: it is `deallocate` on the raw index. -/
def deallocateByIndex (p : MemPool α N) (index : Nat) : MemPool α N := p.deallocate index

/-- `MemPool::available`. -/
def available (p : MemPool α N) : Nat := p.freeCount

/-- `MemPool::get_by_index`: the slot, if the index is below `N`. -/
def getByIndex (p : MemPool α N) (index : Nat) : Option α :=
  if index < N then some (p.storage index) else none

/-- A write to a slot, through `get_mut` or the reference `get_by_index` returns. -/
def write (p : MemPool α N) (index : Nat) (x : α) : MemPool α N :=
  { p with storage := Function.update p.storage index x }

/-- `if let Some(x) = get_by_index(index) { *x = f(x) }`. -/
def modifyByIndex (p : MemPool α N) (index : Nat) (f : α → α) : MemPool α N :=
  if index < N then p.write index (f (p.storage index)) else p

/-- The free stack, bottom first: `free_list[0..free_count]`. -/
def freeSlots (p : MemPool α N) : List Nat := (List.range p.freeCount).map p.freeList

@[simp] theorem write_freeSlots (p : MemPool α N) (i : Nat) (x : α) :
    (p.write i x).freeSlots = p.freeSlots := rfl

@[simp] theorem write_freeCount (p : MemPool α N) (i : Nat) (x : α) :
    (p.write i x).freeCount = p.freeCount := rfl

@[simp] theorem write_storage (p : MemPool α N) (i : Nat) (x : α) :
    (p.write i x).storage = Function.update p.storage i x := rfl

@[simp] theorem modifyByIndex_freeSlots (p : MemPool α N) (i : Nat) (f : α → α) :
    (p.modifyByIndex i f).freeSlots = p.freeSlots := by
  unfold modifyByIndex; split <;> rfl

@[simp] theorem modifyByIndex_freeCount (p : MemPool α N) (i : Nat) (f : α → α) :
    (p.modifyByIndex i f).freeCount = p.freeCount := by
  unfold modifyByIndex; split <;> rfl

theorem modifyByIndex_storage_ne (p : MemPool α N) {i j : Nat} (f : α → α) (h : j ≠ i) :
    (p.modifyByIndex i f).storage j = p.storage j := by
  unfold modifyByIndex; split
  · exact Function.update_noteq h _ _
  · rfl

@[simp] theorem deallocate_storage (p : MemPool α N) (i : Nat) :
    (p.deallocate i).storage = p.storage := rfl

theorem allocate_eq_some {p p' : MemPool α N} {i : Nat} (h : p.allocate = some (i, p')) :
    0 < p.freeCount ∧ i = p.freeList (p.freeCount - 1) ∧
      p' = { p with freeCount := p.freeCount - 1 } := by
  unfold allocate at h
  split at h
  · cases h
  · cases h; exact ⟨by omega, rfl, rfl⟩

/-- `allocate` hands out the top of the stack. -/
theorem freeSlots_allocate {p p' : MemPool α N} {i : Nat} (h : p.allocate = some (i, p')) :
    p'.freeSlots ++ [i] = p.freeSlots := by
  obtain ⟨hc, rfl, rfl⟩ := allocate_eq_some h
  obtain ⟨c, hc'⟩ : ∃ c, p.freeCount = c + 1 := ⟨p.freeCount - 1, by omega⟩
  simp [freeSlots, hc', List.range_succ]

/-- `deallocate` pushes its index on top of the stack. -/
theorem freeSlots_deallocate (p : MemPool α N) (i : Nat) :
    (p.deallocate i).freeSlots = p.freeSlots ++ [i] := by
  simp only [freeSlots, deallocate, List.range_succ, List.map_append, List.map_cons,
    List.map_nil, Function.update_same]
  congr 1
  exact List.map_congr_left fun j hj => Function.update_noteq (List.mem_range.mp hj).ne _ _

/-! ## The invariant -/

/-- The free stack holds exactly the indices below `N` that are not `allocated`, each once. -/
structure Inv (p : MemPool α N) (allocated : List Nat) : Prop where
  free_nodup : p.freeSlots.Nodup
  mem_free : ∀ i, i ∈ p.freeSlots ↔ i < N ∧ i ∉ allocated
  allocated_nodup : allocated.Nodup
  allocated_lt : ∀ i ∈ allocated, i < N
  count : p.freeCount + allocated.length = N

theorem init_inv (fill : α) : (init fill : MemPool α N).Inv [] where
  free_nodup := by simpa [freeSlots, init] using List.nodup_range N
  mem_free := by simp [freeSlots, init]
  allocated_nodup := List.nodup_nil
  allocated_lt := by simp
  count := rfl

theorem Inv.write {p : MemPool α N} {A : List Nat} (h : p.Inv A) (i : Nat) (x : α) :
    (p.write i x).Inv A := ⟨h.1, h.2, h.3, h.4, h.5⟩

theorem Inv.modifyByIndex {p : MemPool α N} {A : List Nat} (h : p.Inv A) (i : Nat)
    (f : α → α) : (p.modifyByIndex i f).Inv A := by
  unfold MemPool.modifyByIndex; split
  · exact h.write _ _
  · exact h

/-- The invariant reads only the free stack and the allocated indices as a set. -/
theorem Inv.congr {p q : MemPool α N} {A B : List Nat} (h : p.Inv A)
    (hs : q.freeSlots = p.freeSlots) (hc : q.freeCount = p.freeCount) (hA : A.Perm B) :
    q.Inv B where
  free_nodup := hs ▸ h.free_nodup
  mem_free i := by rw [hs, h.mem_free, hA.mem_iff]
  allocated_nodup := hA.nodup_iff.mp h.allocated_nodup
  allocated_lt i hi := h.allocated_lt i (hA.mem_iff.mpr hi)
  count := hc ▸ hA.length_eq ▸ h.count

/-- **Allocation** hands out a free index below `N`, and the invariant holds with it
allocated. -/
theorem Inv.allocate {p p' : MemPool α N} {A : List Nat} {i : Nat} (h : p.Inv A)
    (ha : p.allocate = some (i, p')) : i < N ∧ i ∉ A ∧ p'.Inv (i :: A) := by
  have hs := freeSlots_allocate ha
  have hnd := h.free_nodup
  rw [← hs, List.nodup_append] at hnd
  have hi : i ∈ p.freeSlots := hs ▸ List.mem_append_right _ (List.mem_singleton_self i)
  obtain ⟨hiN, hiA⟩ := (h.mem_free i).mp hi
  refine ⟨hiN, hiA, hnd.1, fun j => ?_, List.nodup_cons.mpr ⟨hiA, h.allocated_nodup⟩, ?_, ?_⟩
  · have hj := h.mem_free j
    rw [← hs, List.mem_append, List.mem_singleton] at hj
    have hji : j ∈ p'.freeSlots → j ≠ i := fun hj' e => hnd.2.2 hj' (e ▸ List.mem_singleton_self i)
    simp only [List.mem_cons, not_or]
    constructor
    · intro hj'; exact ⟨(hj.mp (.inl hj')).1, hji hj', (hj.mp (.inl hj')).2⟩
    · rintro ⟨hjN, hji', hjA⟩
      rcases hj.mpr ⟨hjN, hjA⟩ with hj' | e
      · exact hj'
      · exact absurd e hji'
  · intro j hj
    rcases List.mem_cons.mp hj with rfl | hj
    · exact hiN
    · exact h.allocated_lt j hj
  · obtain ⟨hc, -, rfl⟩ := allocate_eq_some ha
    have := h.count
    simp only [List.length_cons]
    omega

/-- A free index cannot be handed back while the stack is full: an allocated index leaves a
free place on the stack. -/
theorem Inv.freeCount_lt {p : MemPool α N} {A : List Nat} {i : Nat} (h : p.Inv A)
    (hi : i ∈ A) : p.freeCount < N := by
  have := h.count
  have := List.length_pos_of_mem hi
  omega

/-- **Deallocation** of an allocated index frees it. -/
theorem Inv.deallocate {p : MemPool α N} {A : List Nat} {i : Nat} (h : p.Inv A) (hi : i ∈ A) :
    (p.deallocate i).Inv (A.erase i) := by
  have hif : i ∉ p.freeSlots := fun hf => ((h.mem_free i).mp hf).2 hi
  refine ⟨?_, fun j => ?_, h.allocated_nodup.erase i, fun j hj => h.allocated_lt j
    (List.mem_of_mem_erase hj), ?_⟩
  · rw [freeSlots_deallocate, List.nodup_append]
    exact ⟨h.free_nodup, List.nodup_singleton i,
      fun a ha hb => hif (List.mem_singleton.mp hb ▸ ha)⟩
  · rw [freeSlots_deallocate, List.mem_append, List.mem_singleton, h.mem_free,
      h.allocated_nodup.mem_erase_iff]
    by_cases hji : j = i
    · subst hji; simp [h.allocated_lt j hi]
    · simp [hji]
  · have := h.count
    rw [List.length_erase_of_mem hi]
    have := List.length_pos_of_mem hi
    show p.freeCount + 1 + (A.length - 1) = N
    omega

theorem deallocateByIndex_eq (p : MemPool α N) (i : Nat) :
    p.deallocateByIndex i = p.deallocate i := rfl

/-- Under the invariant, `allocate` fails exactly when every slot is allocated. -/
theorem Inv.allocate_eq_none_iff {p : MemPool α N} {A : List Nat} (h : p.Inv A) :
    p.allocate = none ↔ ∀ i < N, i ∈ A := by
  have hempty : p.freeCount = 0 ↔ p.freeSlots = [] := by simp [freeSlots]
  have hnone : p.allocate = none ↔ p.freeCount = 0 := by
    unfold MemPool.allocate; split <;> simp_all
  rw [hnone, hempty, List.eq_nil_iff_forall_not_mem]
  simp only [h.mem_free, not_and, not_not]

/-! ## Runs -/

/-- The pools a caller can reach, with the indices it holds: built by `new` or `new_boxed`,
then any `allocate`, and any `deallocate` of an index currently allocated. -/
inductive Reachable : MemPool α N → List Nat → Prop
  | new {fill : α} {p : MemPool α N} : MemPool.new fill = some p → Reachable p []
  | newBoxed {fill : α} {p : MemPool α N} : MemPool.newBoxed fill = some p → Reachable p []
  | allocate {p p' : MemPool α N} {A : List Nat} {i : Nat} :
      Reachable p A → p.allocate = some (i, p') → Reachable p' (i :: A)
  | deallocate {p : MemPool α N} {A : List Nat} {i : Nat} :
      Reachable p A → i ∈ A → Reachable (p.deallocate i) (A.erase i)

theorem new_eq_some {fill : α} {p : MemPool α N} (h : MemPool.new fill = some p) :
    p = init fill := by
  unfold MemPool.new at h; split at h <;> simp_all

theorem newBoxed_eq_some {fill : α} {p : MemPool α N} (h : MemPool.newBoxed fill = some p) :
    p = init fill := by
  unfold MemPool.newBoxed at h; split at h <;> simp_all

theorem Reachable.inv {p : MemPool α N} {A : List Nat} (h : Reachable p A) : p.Inv A := by
  induction h with
  | new hp => rw [new_eq_some hp]; exact init_inv _
  | newBoxed hp => rw [newBoxed_eq_some hp]; exact init_inv _
  | allocate _ ha ih => exact (ih.allocate ha).2.2
  | deallocate _ hi ih => exact ih.deallocate hi

/-- **The pool along any run.** `allocate` returns `None` exactly when all `N` slots are
allocated and otherwise an index below `N` that is not allocated; `available()` is `N` less
the number of allocated slots; the free stack holds the unallocated slots, each once. -/
theorem Reachable.spec {p : MemPool α N} {A : List Nat} (h : Reachable p A) :
    (p.allocate = none ↔ ∀ i < N, i ∈ A) ∧
      (∀ i p', p.allocate = some (i, p') → i < N ∧ i ∉ A) ∧
      A.Nodup ∧ p.available = N - A.length ∧
      p.freeSlots.Nodup ∧ (∀ i, i ∈ p.freeSlots ↔ i < N ∧ i ∉ A) := by
  have hi := h.inv
  refine ⟨hi.allocate_eq_none_iff, fun i p' ha => ?_, hi.allocated_nodup, ?_, hi.free_nodup,
    hi.mem_free⟩
  · obtain ⟨h₁, h₂, -⟩ := hi.allocate ha
    exact ⟨h₁, h₂⟩
  · have := hi.count
    simp only [available]
    omega

/-- Two `allocate` calls on a fresh pool of two slots hand out slot 1, then slot 0;
`deallocate(1)` pushes the first back. The caller then holds slot 0, and the pool has slot 1
free and available, and hands it out next. -/
theorem reachable_spec_after_free :
    let p₀ : MemPool Nat 2 := init 0
    let p₁ : MemPool Nat 2 := { p₀ with freeCount := 1 }
    let p₂ : MemPool Nat 2 := { p₀ with freeCount := 0 }
    let p := p₂.deallocate 1
    p₀.allocate = some (1, p₁) ∧ p₁.allocate = some (0, p₂) ∧ 1 ∈ [0, 1] ∧
      ((p.allocate = none ↔ ∀ i < 2, i ∈ [0]) ∧
        (∀ i p', p.allocate = some (i, p') → i < 2 ∧ i ∉ [0]) ∧
        [0].Nodup ∧ p.available = 2 - [0].length ∧
        p.freeSlots.Nodup ∧ (∀ i, i ∈ p.freeSlots ↔ i < 2 ∧ i ∉ [0])) := by
  intro p₀ p₁ p₂ p
  have h₁ : p₀.allocate = some (1, p₁) := rfl
  have h₂ : p₁.allocate = some (0, p₂) := rfl
  have h₃ : 1 ∈ [0, 1] := by decide
  exact ⟨h₁, h₂, h₃, Reachable.spec
    ((((Reachable.new (show MemPool.new 0 = some p₀ from rfl)).allocate h₁).allocate h₂).deallocate
      h₃)⟩

end MemPool

end LowLatencyTrading
