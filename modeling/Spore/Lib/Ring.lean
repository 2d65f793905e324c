import Mathlib.Data.List.Basic

/-!
# Ring buffers

A ring keeps `len` values in the cells from `head` on, and goes on at cell 0 after cell
`cap - 1`. Values are appended and removed in runs that do not cross the end of the storage.
-/

namespace Spore.Lib

open List

/-- Storage with a window of live values. -/
structure RingBuffer (α : Type _) where
  /-- The slots. -/
  cell : Nat → α
  /-- Cell of the oldest value. -/
  head : Nat
  /-- Number of values. -/
  len : Nat

/-- A run that stays below the end of the storage is a run of cells. -/
theorem wrap_add {cap x j : Nat} (run : x % cap + j < cap) : (x + j) % cap = x % cap + j := by
  rw [← Nat.mod_add_mod, Nat.mod_eq_of_lt run]

/-- Two positions less than a round apart are different cells. -/
theorem wrap_ne {cap a b : Nat} (lt : a < b) (near : b - a < cap) : a % cap ≠ b % cap := by
  intro same
  have whole : (b - a) % cap = 0 := Nat.sub_mod_eq_zero_of_mod_eq same.symm
  rw [Nat.mod_eq_of_lt near] at whole
  omega

namespace RingBuffer

variable {α : Type _} {cap : Nat} {r : RingBuffer α}

/-- First cell behind the values. -/
def tail (cap : Nat) (r : RingBuffer α) : Nat := (r.head + r.len) % cap

/-- The values, oldest first. -/
def contents (cap : Nat) (r : RingBuffer α) : List α :=
  (List.range r.len).map fun k => r.cell ((r.head + k) % cap)

/-- Append a run of values behind the tail. -/
def put (cap : Nat) (r : RingBuffer α) (values : List α) : RingBuffer α where
  cell pos := if r.tail cap ≤ pos then (values[pos - r.tail cap]?).getD (r.cell pos) else r.cell pos
  head := r.head
  len := r.len + values.length

/-- The run of `n` values at the head. -/
def front (r : RingBuffer α) (n : Nat) : List α := (List.range n).map fun k => r.cell (r.head + k)

/-- Remove the run of `n` values at the head. -/
def drop (cap : Nat) (r : RingBuffer α) (n : Nat) : RingBuffer α where
  cell := r.cell
  head := (r.head + n) % cap
  len := r.len - n

/-- There are `len` of them. -/
@[simp] theorem length_contents : (r.contents cap).length = r.len := by simp [contents]

/-- There are `n` of them. -/
@[simp] theorem length_front (n : Nat) : (r.front n).length = n := by simp [front]

/-- They are added. -/
@[simp] theorem put_len (values : List α) :
    (r.put cap values).len = r.len + values.length := rfl

/-- They are taken away. -/
@[simp] theorem drop_len (n : Nat) : (r.drop cap n).len = r.len - n := rfl

/-- An appended run is the end of the contents. -/
theorem contents_put {values : List α} (fits : r.len + values.length ≤ cap)
    (run : r.tail cap + values.length ≤ cap) :
    (r.put cap values).contents cap = r.contents cap ++ values := by
  apply ext_getElem
  · simp
  intro k bound _
  simp only [length_contents, put_len] at bound
  simp only [contents, getElem_map, getElem_range, put]
  by_cases old : k < r.len
  · -- An old value's cell is not one of the run's.
    rw [getElem_append_left (by simpa using old)]
    simp only [getElem_map, getElem_range]
    split
    · rename_i behind
      rw [getElem?_eq_none, Option.getD_none]
      by_contra inside
      have same : (r.head + r.len + ((r.head + k) % cap - r.tail cap)) % cap =
          (r.head + k) % cap := by
        have exact_run : (r.head + r.len) % cap + ((r.head + k) % cap - r.tail cap) < cap := by
          have := run
          unfold tail at *
          omega
        rw [wrap_add exact_run]
        unfold tail at *
        omega
      exact wrap_ne (by omega) (by omega) same.symm
    · rfl
  · rw [getElem_append_right (by simpa using Nat.le_of_not_lt old)]
    have at_run : (r.head + k) % cap = r.tail cap + (k - r.len) := by
      have exact_run : (r.head + r.len) % cap + (k - r.len) < cap := by
        unfold tail at run
        omega
      rw [show r.head + k = r.head + r.len + (k - r.len) by omega, wrap_add exact_run]
      rfl
    rw [at_run, if_pos (Nat.le_add_right _ _)]
    simp only [Nat.add_sub_cancel_left, length_map, length_range]
    rw [getElem?_eq_getElem (by omega), Option.getD_some]

/-- The contents are the run at the head and what remains without it. -/
theorem contents_drop {n : Nat} (enough : n ≤ r.len) (run : r.head + n ≤ cap) :
    r.contents cap = r.front n ++ (r.drop cap n).contents cap := by
  apply ext_getElem
  · simp only [length_contents, length_append, length_front, drop_len]
    omega
  intro k bound _
  by_cases early : k < n
  · rw [getElem_append_left (by simpa using early)]
    simp only [contents, front, getElem_map, getElem_range]
    rw [Nat.mod_eq_of_lt (by omega)]
  · rw [getElem_append_right (by simpa using Nat.le_of_not_lt early)]
    simp only [contents, length_front, getElem_map, getElem_range, drop]
    rw [Nat.mod_add_mod, show r.head + n + (k - n) = r.head + k by omega]

end RingBuffer

end Spore.Lib
