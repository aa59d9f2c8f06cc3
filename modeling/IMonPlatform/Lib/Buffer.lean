import Mathlib.Data.List.TakeDrop

/-!
# Growable buffers

A growable array is a list of its cells.  `resize` keeps the common part and fills new cells with
a default; `overwrite` stores a block at an offset, leaving the cells around it.  The lemmas say
what is left of the old contents when a block is stored at the end of a resized buffer.
-/

set_option autoImplicit false

namespace Buffer

variable {α : Type*}

/-- Change the number of cells to `n`. -/
def resize (buf : List α) (n : Nat) (fill : α) : List α := buf.takeD n fill

/-- Store `block` in the cells `off, off + 1, …`. -/
def overwrite (buf : List α) (off : Nat) (block : List α) : List α :=
  buf.take off ++ block ++ buf.drop (off + block.length)

@[simp] theorem length_resize (buf : List α) (n : Nat) (fill : α) :
    (resize buf n fill).length = n :=
  List.takeD_length n buf fill

theorem length_overwrite {buf block : List α} {off : Nat} (h : off + block.length ≤ buf.length) :
    (overwrite buf off block).length = buf.length := by
  simp only [overwrite, List.length_append, List.length_take, List.length_drop]
  omega

theorem takeD_append (a rest : List α) (n : Nat) (fill : α) (h : a.length ≤ n) :
    (a ++ rest).takeD n fill = a ++ rest.takeD (n - a.length) fill := by
  induction a generalizing n with
  | nil => simp
  | cons x a ih =>
    cases n with
    | zero => simp at h
    | succ n =>
      simp only [List.cons_append, List.takeD_succ, List.head?_cons, Option.getD_some,
        List.tail_cons, List.length_cons, Nat.add_sub_add_right]
      rw [ih n (by simpa using h)]

/-- Growing a buffer keeps the cells it had. -/
theorem take_resize {buf : List α} {n : Nat} {fill : α} (h : buf.length ≤ n) :
    (resize buf n fill).take buf.length = buf := by
  have := takeD_append buf [] n fill h
  rw [List.append_nil] at this
  rw [resize, this, List.take_left]

/-- A block stored at the tail of a buffer replaces exactly the tail. -/
theorem overwrite_tail {buf block : List α} {off : Nat} (h : off + block.length = buf.length) :
    overwrite buf off block = buf.take off ++ block := by
  rw [overwrite, h, List.drop_length, List.append_nil]

/-- A block is stored cell by cell. -/
theorem overwrite_set {buf : List α} {off : Nat} (c : α) (block : List α) (h : off < buf.length) :
    overwrite (buf.set off c) (off + 1) block = overwrite buf off (c :: block) := by
  have htake : (buf.set off c).take (off + 1) = buf.take off ++ [c] := by
    rw [List.set_eq_take_append_cons_drop, if_pos h, List.take_append]
    simp [Nat.le_of_lt h]
  have hdrop : (buf.set off c).drop (off + 1 + block.length) = buf.drop (off + 1 + block.length) :=
    List.drop_set_of_lt (by omega)
  have hlen : off + (c :: block).length = off + 1 + block.length := by
    rw [List.length_cons]
    omega
  rw [overwrite, overwrite, htake, hdrop, hlen]
  simp

end Buffer
