import KeyPool.Provisioning.Batch
import Mathlib.Algebra.Order.BigOperators.Group.List
import Mathlib.Algebra.Order.Floor.Div

/-! There is one way to split keys into batches of which all but the last one are full, and keys are
split that way. The batches are listed one after another, so there may be too many of them to list. -/

namespace KeyPool.Batch

/-- Batches that keys are split into: none is empty, all but the last one are full, and the last one
holds no more than the others. -/
structure IsSplit (needed batchSize : Nat) (batches : List Nat) : Prop where
  nonempty : ∀ size ∈ batches, 0 < size
  total : batches.sum = needed
  full : ∀ size ∈ batches.dropLast, size = batchSize
  last : ∀ size ∈ batches.getLast?, size ≤ batchSize

variable {needed batchSize : Nat}

/-! ## One batch after another -/

theorem sizes_eq_nil (h : needed = 0 ∨ batchSize = 0) : sizes needed batchSize = [] := by
  rcases h with rfl | rfl <;> simp [sizes]

theorem sizes_eq_cons (hn : needed ≠ 0) (hb : batchSize ≠ 0) :
    sizes needed batchSize =
      min batchSize needed :: sizes (needed - min batchSize needed) batchSize := by
  rcases Nat.lt_or_ge needed batchSize with hlt | hle
  · rw [Nat.min_eq_right hlt.le, Nat.sub_self, sizes_eq_nil (.inl rfl)]
    simp [sizes, hb, hn, Nat.div_eq_of_lt hlt, Nat.mod_eq_of_lt hlt]
  · rw [Nat.min_eq_left hle]
    have hdiv : needed / batchSize = (needed - batchSize) / batchSize + 1 :=
      Nat.div_eq_sub_div (Nat.pos_of_ne_zero hb) hle
    have hmod : needed % batchSize = (needed - batchSize) % batchSize := Nat.mod_eq_sub_mod hle
    simp only [sizes, hb, ite_false, hdiv, hmod, List.replicate_succ, List.cons_append]

namespace IsSplit

variable {size : Nat} {rest : List Nat}

/-- The first batch is full unless it takes all. -/
theorem head_eq (h : IsSplit needed batchSize (size :: rest)) : size = min batchSize needed := by
  have htotal : size + rest.sum = needed := h.total
  cases rest with
  | nil =>
      have hlast : size ≤ batchSize := h.last size rfl
      rw [List.sum_nil] at htotal
      omega
  | cons next others =>
      have hfull : size = batchSize := h.full size List.mem_cons_self
      omega

theorem needed_ne_zero (h : IsSplit needed batchSize (size :: rest)) : needed ≠ 0 := by
  have hpos : 0 < size := h.nonempty size List.mem_cons_self
  have htotal : size + rest.sum = needed := h.total
  omega

/-- The other batches hold what the first one leaves. -/
theorem tail (h : IsSplit needed batchSize (size :: rest)) :
    IsSplit (needed - size) batchSize rest := by
  have htotal : size + rest.sum = needed := h.total
  have hnonempty : ∀ other ∈ rest, 0 < other :=
    fun other hother => h.nonempty other (List.mem_cons_of_mem _ hother)
  cases rest with
  | nil => exact ⟨hnonempty, by omega, by simp, by simp⟩
  | cons next others =>
      refine ⟨hnonempty, by omega, ?_, fun other hother => h.last other hother⟩
      exact fun other hother => h.full other (List.mem_cons_of_mem _ hother)

theorem cons (hn : needed ≠ 0) (hb : batchSize ≠ 0)
    (h : IsSplit (needed - min batchSize needed) batchSize rest) :
    IsSplit needed batchSize (min batchSize needed :: rest) := by
  have htotal : rest.sum = needed - min batchSize needed := h.total
  have hnonempty : ∀ size ∈ min batchSize needed :: rest, 0 < size := by
    intro size hsize
    rcases List.mem_cons.mp hsize with rfl | hrest
    · omega
    · exact h.nonempty size hrest
  have htotal' : (min batchSize needed :: rest).sum = needed := by
    rw [List.sum_cons]
    omega
  cases rest with
  | nil => exact ⟨hnonempty, htotal', by simp, by simp⟩
  | cons next others =>
      refine ⟨hnonempty, htotal', ?_, fun size hsize => h.last size hsize⟩
      intro size hsize
      rcases List.mem_cons.mp hsize with rfl | hrest
      · -- something is left, so the first batch did not take all
        have hnext : 0 < next := h.nonempty next List.mem_cons_self
        rw [List.sum_cons] at htotal
        omega
      · exact h.full size hrest

end IsSplit

/-- Keys can be split in one way only, and so they are. -/
theorem isSplit_iff (hb : batchSize ≠ 0) {batches : List Nat} :
    IsSplit needed batchSize batches ↔ batches = sizes needed batchSize := by
  induction batches generalizing needed with
  | nil =>
      constructor
      · intro h
        rw [sizes_eq_nil (.inl h.total.symm)]
      · intro h
        have hn : needed = 0 := by
          by_contra hn
          rw [sizes_eq_cons hn hb] at h
          cases h
        exact ⟨by simp, hn.symm, by simp, by simp⟩
  | cons size rest ih =>
      constructor
      · intro h
        rw [sizes_eq_cons h.needed_ne_zero hb, ← h.head_eq, ← ih.mp h.tail]
      · intro h
        have hn : needed ≠ 0 := by
          rintro rfl
          rw [sizes_eq_nil (.inl rfl)] at h
          cases h
        rw [sizes_eq_cons hn hb] at h
        obtain ⟨rfl, hrest⟩ := List.cons.inj h
        exact .cons hn hb (ih.mpr hrest)

/-- Batches hold all that is needed, unless they hold nothing. -/
theorem sum_sizes (needed batchSize : Nat) :
    (sizes needed batchSize).sum = if batchSize = 0 then 0 else needed := by
  by_cases hb : batchSize = 0
  · simp [hb, sizes_eq_nil]
  · rw [if_neg hb]
    exact ((isSplit_iff hb).mpr rfl).total

theorem le_of_mem_sizes {size : Nat} (h : size ∈ sizes needed batchSize) : size ≤ needed := by
  have hsum : size ≤ (sizes needed batchSize).sum := List.le_sum_of_mem h
  rw [sum_sizes] at hsum
  split at hsum <;> omega

end KeyPool.Batch
