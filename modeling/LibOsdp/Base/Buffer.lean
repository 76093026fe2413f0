/-!
# Length-prefixed data in fixed buffers

A C struct carries a variable payload as a fixed array beside a length. `padded` lays a list
out in such an array, `getTo` is the bounds-checked prefix a reader takes back out.
-/

set_option autoImplicit false

namespace LibOsdp.Base

variable {α : Type}

/-- `data` at the start of an array of `n`, the rest of it `z`. -/
def padded (z : α) (n : Nat) (data : List α) : Vector α n :=
  Vector.ofFn fun i => data.getD i z

/-- The slice `buf.get(..k)`: the first `k` entries, unless `k` runs past the end. -/
def getTo {n : Nat} (buf : Vector α n) (k : Nat) : Option (List α) :=
  if k ≤ n then some (buf.toList.take k) else none

theorem getTo_eq_some {n : Nat} {buf : Vector α n} {k : Nat} {data : List α} :
    getTo buf k = some data ↔ k ≤ n ∧ data = buf.toList.take k := by
  unfold getTo
  split
  · simp [*, eq_comm]
  · simp [*]

theorem getTo_eq_none {n : Nat} {buf : Vector α n} {k : Nat} : getTo buf k = none ↔ n < k := by
  unfold getTo
  split
  · simp [*]
  · simp only [true_iff]
    omega

@[simp] theorem isSome_getTo {n : Nat} {buf : Vector α n} {k : Nat} :
    (getTo buf k).isSome = true ↔ k ≤ n := by
  unfold getTo
  split <;> simp [*]

theorem getElem_padded {z : α} {n : Nat} {data : List α} {i : Nat} (hi : i < n) :
    (padded z n data)[i] = data.getD i z := by
  simp [padded]

/-- A list that fits its array lies there in full, and nothing but filling follows it. -/
theorem toList_padded {z : α} {n : Nat} {data : List α} (h : data.length ≤ n) :
    (padded z n data).toList = data ++ List.replicate (n - data.length) z := by
  apply List.ext_getElem
  · simp
    omega
  · intro i h₁ h₂
    simp only [Vector.length_toList] at h₁
    rw [Vector.getElem_toList, getElem_padded h₁, List.getD_eq_getElem?_getD]
    by_cases hi : i < data.length
    · rw [List.getElem?_eq_getElem hi, Option.getD_some, List.getElem_append_left hi]
    · rw [List.getElem?_eq_none (by omega), Option.getD_none, List.getElem_append_right (by omega),
        List.getElem_replicate]

/-- A laid out list is a prefix of its array. -/
theorem take_padded {z : α} {n k : Nat} {data : List α} (hk : k ≤ n) (hd : k ≤ data.length) :
    (padded z n data).toList.take k = data.take k := by
  apply List.ext_getElem
  · simp
    omega
  · intro i h₁ h₂
    simp only [List.length_take, Vector.length_toList] at h₁ h₂
    rw [List.getElem_take, List.getElem_take, Vector.getElem_toList, getElem_padded (by omega),
      List.getD_eq_getElem?_getD, List.getElem?_eq_getElem (by omega), Option.getD_some]

/-- **The buffer round trip**: what fits an array is read back from it by its length. -/
theorem getTo_padded {z : α} {n : Nat} {data : List α} (h : data.length ≤ n) :
    getTo (padded z n data) data.length = some data := by
  refine getTo_eq_some.2 ⟨h, ?_⟩
  rw [take_padded h (Nat.le_refl _), List.take_length]

end LibOsdp.Base
