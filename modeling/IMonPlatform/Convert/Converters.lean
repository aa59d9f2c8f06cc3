import IMonPlatform.Lib.Ownership
import IMonPlatform.Lib.Transition

/-!
# Objects of the converter classes

`CA2U`, `CU2A`, `CU82U`, `CU2U8`, `CA2U8` and `CU82A` have the same members up to the types of their
characters and the conversion they call.  An object owns one block, `_szText`, or none.  An
assignment of text deletes the block before it reads the text; the copy and move assignments
overwrite the pointer.

* `Converters.step` — what a program can do with any number of objects of these classes.
* `converters_corrupt_iff` — memory is corrupted exactly by the assignment of an object's own
  `c_str()`, which only `CA2U8` and `CU82A` admit.
* `converters_refine` — otherwise the objects behave like values, an assignment from an object
  without text aside, and every block is owned, given back, or lost by an assignment to an object
  that holds a text.
-/

set_option autoImplicit false

namespace IMonPlatform.Convert

open Transition Ownership

/-! ## The classes -/

inductive CharType where
  | char
  | wchar_t
  deriving DecidableEq, Repr

inductive Converter where
  | CA2U
  | CU2A
  | CU82U
  | CU2U8
  | CA2U8
  | CU82A
  deriving DecidableEq, Repr

/-- Characters of the text that a converter is given. -/
def Converter.source : Converter → CharType
  | .CA2U | .CU82U | .CA2U8 | .CU82A => .char
  | .CU2A | .CU2U8 => .wchar_t

/-- Characters of `_szText`. -/
def Converter.result : Converter → CharType
  | .CU2A | .CU2U8 | .CA2U8 | .CU82A => .char
  | .CA2U | .CU82U => .wchar_t

/-- What the objects of a program depend on. -/
structure Program (Text : Type) where
  /-- The class of an object. -/
  type : Nat → Converter
  /-- What the conversion functions make of a text; they may return 0. -/
  conversion : Converter → Text → Option Text
  /-- `"(NULL)"` -/
  NULL_TEXT : Text

/-- The argument of a constructor or an assignment. -/
inductive Argument (Text : Type) where
  | null
  | text (szText : Text)
  /-- The `c_str()` of an object. -/
  | c_str (converter : Nat)

/-- What a program does with object `x`. -/
inductive Op (Text : Type) where
  | construct (x : Nat) (szText : Argument Text)
  | copyConstruct (x converter : Nat)
  | moveConstruct (x converter : Nat)
  | assign (x : Nat) (szText : Argument Text)
  | copyAssign (x converter : Nat)
  | moveAssign (x converter : Nat)
  | destroy (x : Nat)

variable {Text : Type}

/-- The objects of a program and its heap. -/
structure Converters (Text : Type) where
  heap : Heap Text
  /-- `_szText` of an object that lives. -/
  objects : Nat → Option (Option Nat)
  /-- A block has been read or deleted that was not live. -/
  corrupted : Bool

/-- A pointer to characters. -/
inductive Ptr (Text : Type) where
  | null
  | literal (text : Text)
  | block (p : Nat)

namespace Converters

def start : Converters Text := ⟨Heap.empty, fun _ => none, false⟩

/-- The block of an object. -/
def own (st : Converters Text) (x : Nat) : Option Nat := (st.objects x).join

/-- Set `_szText`. -/
def setText (st : Converters Text) (x : Nat) (szText : Option Nat) : Converters Text :=
  { st with objects := Function.update st.objects x (some szText) }

/-- `DeletePtrA( _szText )` -/
def DeletePtrA (st : Converters Text) (x : Nat) : Converters Text :=
  match st.own x with
  | none => st
  | some p =>
    if (st.heap.block p).isSome then { st.setText x none with heap := st.heap.delete p }
    else { st with corrupted := true }

/-- A new block with a text for an object. -/
def store (st : Converters Text) (x : Nat) (text : Text) : Converters Text :=
  { st.setText x (some st.heap.fresh) with heap := st.heap.new text }

variable (prog : Program Text)

/-- The pointer that an argument stands for; it is taken before the member function runs. -/
def pointer (st : Converters Text) : Argument Text → Option (Ptr Text)
  | .null => some .null
  | .text szText => some (.literal szText)
  | .c_str y =>
    match st.objects y with
    | none => none
    | some none => some (.literal prog.NULL_TEXT)
    | some (some p) => some (.block p)

/-- What a conversion makes of the text is the new `_szText`.  When it fails, the block that was
    made for it is deleted again. -/
def keep (st : Converters Text) (x : Nat) (text : Text) : Converters Text :=
  match prog.conversion (prog.type x) text with
  | none => st.setText x none
  | some result => st.store x result

/-- `convert`: the own block is deleted, then the text is read. -/
def convert (st : Converters Text) (x : Nat) (szText : Ptr Text) : Converters Text :=
  let st := st.DeletePtrA x
  if st.corrupted then st
  else match szText with
    | .null => st.setText x none
    | .literal text => st.keep prog x text
    | .block p =>
      match st.heap.block p with
      | none => { st with corrupted := true }
      | some text => st.keep prog x text

/-- The characters of an argument are those that the class takes. -/
def Accepts (x : Nat) : Argument Text → Prop
  | .c_str y => (prog.type y).result = (prog.type x).source
  | _ => True

instance (x : Nat) (a : Argument Text) : Decidable (Accepts prog x a) :=
  match a with
  | .null => inferInstanceAs (Decidable True)
  | .text _ => inferInstanceAs (Decidable True)
  | .c_str y => inferInstanceAs (Decidable ((prog.type y).result = (prog.type x).source))

/-- `CopyAnsiString` and `CopyWideString` into `_szText`, whose old value is not looked at.  (Their
    assertion that it is null is not part of a release build.) -/
def copyText (st : Converters Text) (x y : Nat) : Converters Text :=
  match st.own y with
  | none => st
  | some p =>
    match st.heap.block p with
    | none => { st with corrupted := true }
    | some text => st.store x text

/-- One operation.  A program that has corrupted its memory has no further steps. -/
def step (st : Converters Text) : Op Text → Option (Converters Text)
  | .construct x a =>
    if st.corrupted ∨ (st.objects x).isSome ∨ ¬ Accepts prog x a then none
    else (st.pointer prog a).map fun szText => (st.setText x none).convert prog x szText
  | .copyConstruct x y =>
    if st.corrupted ∨ (st.objects x).isSome ∨ (st.objects y).isNone ∨ prog.type x ≠ prog.type y
    then none
    else some ((st.setText x none).copyText x y)
  | .moveConstruct x y =>
    if st.corrupted ∨ (st.objects x).isSome ∨ (st.objects y).isNone ∨ prog.type x ≠ prog.type y
    then none
    else some ((st.setText x (st.own y)).setText y none)
  | .assign x a =>
    if st.corrupted ∨ (st.objects x).isNone ∨ ¬ Accepts prog x a then none
    else (st.pointer prog a).map fun szText => st.convert prog x szText
  | .copyAssign x y =>
    if st.corrupted ∨ (st.objects x).isNone ∨ (st.objects y).isNone ∨ prog.type x ≠ prog.type y
    then none
    else some (st.copyText x y)
  | .moveAssign x y =>
    if st.corrupted ∨ (st.objects x).isNone ∨ (st.objects y).isNone ∨ prog.type x ≠ prog.type y
    then none
    else some ((st.setText x (st.own y)).setText y none)
  | .destroy x =>
    if st.corrupted ∨ (st.objects x).isNone then none
    else some { st.DeletePtrA x with
      objects := Function.update (st.DeletePtrA x).objects x none }

/-- The block whose last pointer an operation overwrites. -/
def lostBy (st : Converters Text) : Op Text → Option Nat
  | .copyAssign x y => if (st.own y).isSome then st.own x else none
  | .moveAssign x _ => st.own x
  | _ => none

/-- An operation is not the assignment of an object's own `c_str()` while it holds a text. -/
def NotOwnText (st : Converters Text) : Op Text → Prop
  | .assign x (.c_str y) => x = y → st.own x = none
  | _ => True

/-! ## The objects as values -/

/-- The text of an object, if it holds one. -/
def value (st : Converters Text) (x : Nat) : Option (Option Text) :=
  (st.objects x).map fun szText => szText.bind st.heap.block

end Converters

/-- The texts of the living objects. -/
abbrev Values (Text : Type) := Nat → Option (Option Text)

namespace Values

variable (prog : Program Text)

/-- The text that an argument stands for. -/
def argument (v : Values Text) : Argument Text → Option (Option Text)
  | .null => some none
  | .text szText => some (some szText)
  | .c_str y => (v y).map fun text => some (text.getD prog.NULL_TEXT)

/-- What the operations are for.  An assignment from an object without text does nothing; a moved
    object is left without text, also when it is moved to itself. -/
def step (v : Values Text) : Op Text → Option (Values Text)
  | .construct x a =>
    if (v x).isSome ∨ ¬ Converters.Accepts prog x a then none
    else (argument prog v a).map fun text =>
      Function.update v x (some (text.bind (prog.conversion (prog.type x))))
  | .copyConstruct x y =>
    if (v x).isSome ∨ (v y).isNone ∨ prog.type x ≠ prog.type y then none
    else some (Function.update v x (v y))
  | .moveConstruct x y =>
    if (v x).isSome ∨ (v y).isNone ∨ prog.type x ≠ prog.type y then none
    else some (Function.update (Function.update v x (v y)) y (some none))
  | .assign x a =>
    if (v x).isNone ∨ ¬ Converters.Accepts prog x a then none
    else (argument prog v a).map fun text =>
      Function.update v x (some (text.bind (prog.conversion (prog.type x))))
  | .copyAssign x y =>
    if (v x).isNone ∨ (v y).isNone ∨ prog.type x ≠ prog.type y then none
    else match v y with
      | some (some text) => some (Function.update v x (some (some text)))
      | _ => some v
  | .moveAssign x y =>
    if (v x).isNone ∨ (v y).isNone ∨ prog.type x ≠ prog.type y then none
    else some (Function.update (Function.update v x (v y)) y (some none))
  | .destroy x => if (v x).isNone then none else some (Function.update v x none)

end Values

variable {prog : Program Text} {st st' : Converters Text} {lost : List Nat}

/-! ## What the operations do to the blocks -/

namespace Converters

/-- The blocks are accounted for and nothing has gone wrong. -/
structure Sound (st : Converters Text) (lost : List Nat) : Prop where
  account : Accounted st.heap st.own lost
  intact : st.corrupted = false

theorem start_sound : Sound (start : Converters Text) [] := ⟨accounted_empty, rfl⟩

@[simp] theorem own_setText (x : Nat) (szText : Option Nat) :
    (st.setText x szText).own = Function.update st.own x szText := by
  funext k
  unfold own setText
  by_cases hk : k = x
  · subst hk
    simp
  · simp [hk]

theorem value_of_own {x p : Nat} (h : st.own x = some p) :
    st.value x = some (st.heap.block p) := by
  unfold value
  rw [Option.join_eq_some_iff.mp h]
  rfl

/-- An object whose block is not touched keeps its value. -/
theorem value_congr {x : Nat} (hobj : st'.objects x = st.objects x)
    (hblock : ∀ p, st.own x = some p → st'.heap.block p = st.heap.block p) :
    st'.value x = st.value x := by
  unfold value
  unfold own at hblock
  rw [hobj]
  cases hx : st.objects x with
  | none => rfl
  | some szText =>
    cases szText with
    | none => rfl
    | some p => simp [hblock p (by rw [hx]; rfl)]

/-- The text of an object goes, and nothing else changes. -/
theorem Sound.deleteText (hs : Sound st lost) {x : Nat} {szText : Option Nat}
    (hx : st.objects x = some szText) :
    Sound (st.DeletePtrA x) lost ∧ (st.DeletePtrA x).own x = none ∧
      (st.DeletePtrA x).objects x = some none ∧
      ∀ y, y ≠ x → (st.DeletePtrA x).objects y = st.objects y ∧
        (st.DeletePtrA x).value y = st.value y := by
  unfold DeletePtrA
  cases szText with
  | none =>
    have hown : st.own x = none := by simp [own, hx]
    rw [hown]
    exact ⟨hs, hown, hx, fun y _ => ⟨rfl, rfl⟩⟩
  | some p =>
    have hown : st.own x = some p := by simp [own, hx]
    have hlive : (st.heap.block p).isSome := (hs.account.live p).mpr (.inl ⟨x, hown⟩)
    simp only [hown, hlive, if_true]
    refine ⟨⟨?_, hs.intact⟩, ?_, ?_, fun y hy => ?_⟩
    · have hdel := hs.account.delete hown
      rwa [← own_setText] at hdel
    · show (st.setText x none).own x = none
      simp
    · exact Function.update_self ..
    · have hobj : (st.setText x none).objects y = st.objects y := Function.update_of_ne hy _ _
      refine ⟨hobj, value_congr hobj fun q hq => ?_⟩
      refine st.heap.delete_block_of_ne ?_
      rintro rfl
      exact hy (hs.account.distinct y x q hq hown)

/-- An object gets a new block with a text; the block that it had is lost. -/
theorem Sound.store (hs : Sound st lost) (x : Nat) (text : Text) :
    Sound (st.store x text) (lost ++ (st.own x).toList) ∧
      (st.store x text).value = Function.update st.value x (some (some text)) := by
  refine ⟨⟨?_, hs.intact⟩, ?_⟩
  · have hnew := (hs.account.forget x).new (Function.update_self ..) text
    rwa [Function.update_idem, ← own_setText] at hnew
  · funext y
    by_cases hy : y = x
    · subst hy
      simp [value, Converters.store, setText]
    · rw [Function.update_of_ne hy]
      refine value_congr (Function.update_of_ne hy _ _) fun q hq => ?_
      have hlt := hs.account.owner_lt hq
      exact st.heap.new_block_of_ne text (by omega)

/-- The outcome of a conversion is stored. -/
theorem Sound.keep (hs : Sound st lost) {x : Nat} (hown : st.own x = none) (text : Text) :
    Sound (st.keep prog x text) lost ∧
      (st.keep prog x text).value =
        Function.update st.value x (some (prog.conversion (prog.type x) text)) := by
  unfold Converters.keep
  cases hconv : prog.conversion (prog.type x) text with
  | none =>
    refine ⟨⟨?_, hs.intact⟩, ?_⟩
    · show Accounted st.heap (st.setText x none).own lost
      rw [own_setText, ← hown, Function.update_eq_self]
      exact hs.account
    · funext y
      by_cases hy : y = x
      · subst hy
        simp [value, setText]
      · rw [Function.update_of_ne hy]
        exact value_congr (Function.update_of_ne hy _ _) fun _ _ => rfl
  | some result =>
    have hstore := hs.store x result
    rwa [hown, Option.toList_none, List.append_nil] at hstore

/-! ## Conversions -/

/-- A pointer that `convert` can read after it has deleted the text of `x`, and what it reads. -/
inductive Points (st : Converters Text) (x : Nat) : Ptr Text → Option Text → Prop
  | null : Points st x .null none
  | literal (text : Text) : Points st x (.literal text) (some text)
  | block {y p : Nat} {text : Text} (hy : y ≠ x) (hown : st.own y = some p)
      (hp : st.heap.block p = some text) : Points st x (.block p) (some text)

/-- The pointer to an argument other than the own text. -/
theorem Sound.points (hs : Sound st lost) {x : Nat} {a : Argument Text} {szText : Ptr Text}
    (hnot : ∀ y, a = .c_str y → x = y → st.own x = none)
    (h : st.pointer prog a = some szText) :
    ∃ text, Points st x szText text ∧ Values.argument prog st.value a = some text := by
  cases a with
  | null =>
    cases h
    exact ⟨none, .null, rfl⟩
  | text t =>
    cases h
    exact ⟨some t, .literal t, rfl⟩
  | c_str y =>
    simp only [pointer] at h
    split at h
    · cases h
    · rename_i hy
      cases h
      refine ⟨some prog.NULL_TEXT, .literal _, ?_⟩
      simp [Values.argument, value, hy]
    · rename_i p hy
      cases h
      have hown : st.own y = some p := by simp [own, hy]
      obtain ⟨text, htext⟩ := hs.account.owner_live hown
      have hne : y ≠ x := by
        rintro rfl
        rw [hnot y rfl rfl] at hown
        cases hown
      refine ⟨some text, .block hne hown htext, ?_⟩
      simp [Values.argument, value, hy, htext]

/-- **A conversion reads its argument**: the object holds what the conversion made of it. -/
theorem Sound.convert (prog : Program Text) (hs : Sound st lost) {x : Nat} {old : Option Nat}
    (hx : st.objects x = some old) {szText : Ptr Text} {text : Option Text}
    (hp : Points st x szText text) :
    Sound (st.convert prog x szText) lost ∧
      (st.convert prog x szText).value =
        Function.update st.value x (some (text.bind (prog.conversion (prog.type x)))) := by
  obtain ⟨hdel, hown, hobj, hother⟩ := hs.deleteText hx
  have hsame : ∀ v, Function.update (st.DeletePtrA x).value x v = Function.update st.value x v := by
    intro v
    funext y
    by_cases hy : y = x
    · subst hy
      simp
    · simp only [Function.update_of_ne hy]
      exact (hother y hy).2
  unfold Converters.convert
  simp only [hdel.intact, Bool.false_eq_true, if_false]
  cases hp with
  | null =>
    refine ⟨⟨?_, hdel.intact⟩, ?_⟩
    · show Accounted (st.DeletePtrA x).heap ((st.DeletePtrA x).setText x none).own lost
      rw [own_setText, ← hown, Function.update_eq_self]
      exact hdel.account
    · rw [← hsame]
      funext y
      by_cases hy : y = x
      · subst hy
        simp [value, setText]
      · rw [Function.update_of_ne hy]
        exact value_congr (Function.update_of_ne hy _ _) fun _ _ => rfl
  | literal t =>
    rw [← hsame]
    exact hdel.keep hown t
  | block hy hp htext =>
    rename_i y p t
    -- the block of another object is still there
    have hvalue := (hother y hy).2
    have hobjy := (hother y hy).1
    have hownd : (st.DeletePtrA x).own y = some p := by
      unfold own at hp ⊢
      rw [hobjy, hp]
    have hread : (st.DeletePtrA x).heap.block p = some t := by
      rw [value_of_own hownd, value_of_own hp, Option.some.injEq] at hvalue
      exact hvalue.trans htext
    simp only [hread]
    rw [← hsame]
    exact hdel.keep hown t

/-! ## Copies, moves and destruction -/

/-- A copy of another object's text. -/
theorem Sound.copyText (hs : Sound st lost) (x : Nat) {y : Nat} (hy : (st.objects y).isSome) :
    Sound (st.copyText x y) (lost ++ (if (st.own y).isSome then st.own x else none).toList) ∧
      (st.copyText x y).value = match st.value y with
        | some (some text) => Function.update st.value x (some (some text))
        | _ => st.value := by
  unfold Converters.copyText
  cases hown : st.own y with
  | none =>
    have hvalue : st.value y = some none := by
      obtain ⟨szText, hsz⟩ := Option.isSome_iff_exists.mp hy
      unfold own at hown
      rw [hsz, Option.join_some] at hown
      simp [value, hsz, hown]
    simp only [hvalue, Option.isSome_none, Bool.false_eq_true, if_false, Option.toList_none,
      List.append_nil, and_true]
    exact hs
  | some p =>
    obtain ⟨text, htext⟩ := hs.account.owner_live hown
    simp only [value_of_own hown, htext, Option.isSome_some, if_true]
    exact hs.store x text

/-- The text of `y` goes to `x`. -/
theorem Sound.moveText (hs : Sound st lost) (x : Nat) {y : Nat} (hy : (st.objects y).isSome) :
    Sound ((st.setText x (st.own y)).setText y none) (lost ++ (st.own x).toList) ∧
      ((st.setText x (st.own y)).setText y none).value =
        Function.update (Function.update st.value x (st.value y)) y (some none) := by
  refine ⟨⟨?_, hs.intact⟩, ?_⟩
  · show Accounted st.heap ((st.setText x (st.own y)).setText y none).own _
    rw [own_setText, own_setText]
    by_cases hxy : x = y
    · subst hxy
      rw [Function.update_eq_self]
      exact hs.account.forget x
    · have hmove := (hs.account.forget x).move hxy (Function.update_self ..)
      rwa [Function.update_of_ne (Ne.symm hxy), Function.update_idem] at hmove
  · funext k
    by_cases hk : k = y
    · subst hk
      simp [value, setText]
    · rw [Function.update_of_ne hk]
      by_cases hkx : k = x
      · subst hkx
        obtain ⟨szText, hsz⟩ := Option.isSome_iff_exists.mp hy
        simp [value, setText, own, hk, hsz]
      · rw [Function.update_of_ne hkx]
        refine value_congr ?_ fun _ _ => rfl
        show Function.update (Function.update st.objects x _) y _ k = _
        rw [Function.update_of_ne hk, Function.update_of_ne hkx]

/-- A new object without text. -/
theorem Sound.create (hs : Sound st lost) {x : Nat} (hx : st.objects x = none) :
    Sound (st.setText x none) lost ∧
      (st.setText x none).value = Function.update st.value x (some none) := by
  have hown : st.own x = none := by simp [own, hx]
  refine ⟨⟨?_, hs.intact⟩, ?_⟩
  · show Accounted st.heap (st.setText x none).own lost
    rw [own_setText, ← hown, Function.update_eq_self]
    exact hs.account
  · funext k
    by_cases hk : k = x
    · subst hk
      simp [value, setText]
    · rw [Function.update_of_ne hk]
      exact value_congr (Function.update_of_ne hk _ _) fun _ _ => rfl

/-- An object ends and gives its block back. -/
theorem Sound.destroy (hs : Sound st lost) {x : Nat} {szText : Option Nat}
    (hx : st.objects x = some szText) :
    Sound { st.DeletePtrA x with
        objects := Function.update (st.DeletePtrA x).objects x none } lost ∧
      value { st.DeletePtrA x with
        objects := Function.update (st.DeletePtrA x).objects x none } =
          Function.update st.value x none := by
  obtain ⟨hdel, hown, hobj, hother⟩ := hs.deleteText hx
  refine ⟨⟨?_, hdel.intact⟩, ?_⟩
  · have hsame : own { st.DeletePtrA x with
        objects := Function.update (st.DeletePtrA x).objects x none } =
          (st.DeletePtrA x).own := by
      funext k
      by_cases hk : k = x
      · subst hk
        rw [hown]
        simp [own]
      · unfold own
        simp only [Function.update_of_ne hk]
    rw [hsame]
    exact hdel.account
  · funext k
    by_cases hk : k = x
    · subst hk
      simp [value]
    · rw [Function.update_of_ne hk, ← (hother k hk).2]
      exact value_congr (Function.update_of_ne hk _ _) fun _ _ => rfl

theorem isSome_value (st : Converters Text) (x : Nat) :
    (st.value x).isSome = (st.objects x).isSome := by
  unfold value
  cases st.objects x <;> rfl

theorem isNone_value (st : Converters Text) (x : Nat) :
    (st.value x).isNone = (st.objects x).isNone := by
  unfold value
  cases st.objects x <;> rfl

/-- **A step is one of the values**, unless an object is assigned its own text; the blocks stay
    accounted for. -/
theorem step_sound {op : Op Text} (hs : Sound st lost) (hnot : st.NotOwnText op)
    (h : step prog st op = some st') :
    Sound st' (lost ++ (st.lostBy op).toList) ∧
      Values.step prog st.value op = some st'.value := by
  cases op with
  | construct x a =>
    simp only [step] at h
    split at h
    · cases h
    rename_i hguard
    simp only [not_or, not_not, hs.intact] at hguard
    obtain ⟨_, hx, haccepts⟩ := hguard
    obtain ⟨szText, hptr, rfl⟩ := Option.map_eq_some_iff.mp h
    have hnone : st.objects x = none := by simpa using hx
    obtain ⟨text, hpoints, harg⟩ := hs.points (x := x) (fun y ha hxy => by simp [own, hnone]) hptr
    obtain ⟨hcreate, hvalue⟩ := hs.create hnone
    have hpoints' : Points (st.setText x none) x szText text := by
      cases hpoints with
      | null => exact .null
      | literal t => exact .literal t
      | block hy hp htext =>
        refine .block hy ?_ htext
        rw [own_setText, Function.update_of_ne hy]
        exact hp
    obtain ⟨hsound, hval⟩ := hcreate.convert prog (Function.update_self ..) hpoints'
    refine ⟨by simpa [lostBy] using hsound, ?_⟩
    simp only [Values.step]
    rw [if_neg (by simp [isSome_value, hnone, haccepts]), harg, Option.map_some, hval, hvalue,
      Function.update_idem]
  | copyConstruct x y =>
    simp only [step] at h
    split at h
    · cases h
    rename_i hguard
    simp only [not_or, hs.intact] at hguard
    obtain ⟨_, hx, hy, htype⟩ := hguard
    cases h
    have hnone : st.objects x = none := by simpa using hx
    obtain ⟨hcreate, hvalue⟩ := hs.create hnone
    have hyx : y ≠ x := by
      rintro rfl
      simp [hnone] at hy
    have hsome : ((st.setText x none).objects y).isSome := by
      show (Function.update st.objects x _ y).isSome
      rw [Function.update_of_ne hyx]
      simpa [Option.isSome_iff_ne_none] using hy
    obtain ⟨hsound, hval⟩ := hcreate.copyText x hsome
    have hnoblock : (st.setText x none).own x = none := by simp
    rw [hnoblock, ite_self] at hsound
    refine ⟨by simpa [lostBy] using hsound, ?_⟩
    simp only [Values.step]
    rw [if_neg (by simp [isSome_value, isNone_value, hnone, hy, htype]), hval, hvalue,
      Function.update_of_ne hyx]
    have hsomey : (st.value y).isSome := by
      rw [isSome_value]
      simpa [Option.isSome_iff_ne_none] using hy
    obtain ⟨text, htext⟩ := Option.isSome_iff_exists.mp hsomey
    rw [htext]
    cases text with
    | none => rfl
    | some t => simp only [Function.update_idem]
  | moveConstruct x y =>
    simp only [step] at h
    split at h
    · cases h
    rename_i hguard
    simp only [not_or, hs.intact] at hguard
    obtain ⟨_, hx, hy, htype⟩ := hguard
    cases h
    have hnone : st.objects x = none := by simpa using hx
    have hown : st.own x = none := by simp [own, hnone]
    obtain ⟨hsound, hval⟩ := hs.moveText x (by simpa [Option.isSome_iff_ne_none] using hy)
    refine ⟨by simpa [lostBy, hown] using hsound, ?_⟩
    simp only [Values.step]
    rw [if_neg (by simp [isSome_value, isNone_value, hnone, hy, htype]), hval]
  | assign x a =>
    simp only [step] at h
    split at h
    · cases h
    rename_i hguard
    simp only [not_or, not_not, hs.intact] at hguard
    obtain ⟨_, hx, haccepts⟩ := hguard
    obtain ⟨szText, hptr, rfl⟩ := Option.map_eq_some_iff.mp h
    obtain ⟨old, hold⟩ := Option.isSome_iff_exists.mp (by simpa [Option.isSome_iff_ne_none] using hx)
    obtain ⟨text, hpoints, harg⟩ := hs.points (x := x)
      (fun y ha hxy => by subst ha; exact hnot hxy) hptr
    obtain ⟨hsound, hval⟩ := hs.convert prog hold hpoints
    refine ⟨by simpa [lostBy] using hsound, ?_⟩
    simp only [Values.step]
    rw [if_neg (by simp [isNone_value, hold, haccepts]), harg, Option.map_some, hval]
  | copyAssign x y =>
    simp only [step] at h
    split at h
    · cases h
    rename_i hguard
    simp only [not_or, hs.intact] at hguard
    obtain ⟨_, hx, hy, htype⟩ := hguard
    cases h
    obtain ⟨hsound, hval⟩ := hs.copyText x (by simpa [Option.isSome_iff_ne_none] using hy)
    refine ⟨hsound, ?_⟩
    simp only [Values.step]
    rw [if_neg (by simp [isNone_value, hx, hy, htype]), hval]
    split <;> rfl
  | moveAssign x y =>
    simp only [step] at h
    split at h
    · cases h
    rename_i hguard
    simp only [not_or, hs.intact] at hguard
    obtain ⟨_, hx, hy, htype⟩ := hguard
    cases h
    obtain ⟨hsound, hval⟩ := hs.moveText x (by simpa [Option.isSome_iff_ne_none] using hy)
    refine ⟨hsound, ?_⟩
    simp only [Values.step]
    rw [if_neg (by simp [isNone_value, hx, hy, htype]), hval]
  | destroy x =>
    simp only [step] at h
    split at h
    · cases h
    rename_i hguard
    simp only [not_or, hs.intact] at hguard
    obtain ⟨_, hx⟩ := hguard
    cases h
    obtain ⟨old, hold⟩ := Option.isSome_iff_exists.mp (by simpa [Option.isSome_iff_ne_none] using hx)
    obtain ⟨hsound, hval⟩ := hs.destroy hold
    refine ⟨by simpa [lostBy] using hsound, ?_⟩
    simp only [Values.step]
    rw [if_neg (by simp [isNone_value, hold]), hval]

/-- **The assignment of the own text reads the block that it has just deleted.** -/
theorem step_corrupts {op : Op Text} (hs : Sound st lost) (hnot : ¬ st.NotOwnText op)
    (h : step prog st op = some st') : st'.corrupted = true := by
  cases op with
  | assign x a =>
    cases a with
    | c_str y =>
      simp only [NotOwnText, Classical.not_imp] at hnot
      obtain ⟨rfl, hown⟩ := hnot
      obtain ⟨p, hp⟩ := Option.ne_none_iff_exists'.mp hown
      have hobj : st.objects x = some (some p) := Option.join_eq_some_iff.mp hp
      have hlive : (st.heap.block p).isSome := (hs.account.live p).mpr (.inl ⟨x, hp⟩)
      simp only [step, pointer, hobj] at h
      split at h
      · cases h
      · cases h
        simp [Converters.convert, Converters.DeletePtrA, hp, hlive, hs.intact, setText]
    | null => exact absurd trivial hnot
    | text t => exact absurd trivial hnot
  | _ => exact absurd trivial hnot

end Converters

/-! ## Runs -/

open Converters

/-- **Memory is corrupted exactly by the assignment of an object's own text.**  For every sequence
    of operations on any number of objects: no block is read or deleted after its deletion if and
    only if no step assigns to an object that holds a text its own `c_str()`.  For classes that
    convert between different characters there is no such assignment. -/
theorem converters_corrupt_iff (prog : Program Text) (ops : List (Op Text)) :
    (Always (step prog) (fun st => st.corrupted = false) start ops ↔
      Meets (step prog) (fun st op => st.NotOwnText op) start ops) ∧
    ((∀ x, (prog.type x).source ≠ (prog.type x).result) →
      Always (step prog) (fun st => st.corrupted = false) start ops) := by
  have hiff : Always (step prog) (fun st => st.corrupted = false) start ops ↔
      Meets (step prog) (fun st op => st.NotOwnText op) start ops := by
    refine always_iff_meets (I := fun st => ∃ lost, Sound st lost) ?_ ?_ ?_ ops start
      ⟨[], start_sound⟩
    · rintro st ⟨lost, hs⟩
      exact hs.intact
    · rintro st op st' ⟨lost, hs⟩ hc h
      exact ⟨_, (step_sound hs hc h).1⟩
    · rintro st op st' ⟨lost, hs⟩ hc h hintact
      rw [step_corrupts hs hc h] at hintact
      cases hintact
  refine ⟨hiff, fun htypes => ?_⟩
  -- such an assignment is not accepted by the class
  have hrefused : ∀ (st st' : Converters Text) (op : Op Text), step prog st op = some st' →
      st.NotOwnText op := by
    intro st st' op h
    cases op with
    | assign x a =>
      cases a with
      | c_str y =>
        rintro rfl
        simp only [step] at h
        rw [if_pos (.inr (.inr fun hacc => htypes x hacc.symm))] at h
        cases h
      | null => trivial
      | text t => trivial
    | _ => trivial
  have hmeets : ∀ (es : List (Op Text)) (st : Converters Text),
      Meets (step prog) (fun st op => st.NotOwnText op) st es := by
    intro es
    induction es with
    | nil => exact fun _ => trivial
    | cons op es ih => exact fun st st' h => ⟨hrefused st st' op h, ih st'⟩
  exact hiff.mpr (hmeets ops start)

/-- Along a run the lost blocks add up. -/
theorem run_sound (prog : Program Text) (ops : List (Op Text)) :
    ∀ (st st' : Converters Text) (lost : List Nat), Sound st lost →
      Meets (step prog) (fun st op => st.NotOwnText op) st ops → run (step prog) st ops = some st' →
        Sound st' (lost ++ outputs (step prog) lostBy st ops) ∧
          run (Values.step prog) st.value ops = some st'.value := by
  induction ops with
  | nil =>
    intro st st' lost hs _ hrun
    cases hrun
    simpa [outputs] using hs
  | cons op ops ih =>
    intro st st' lost hs hmeets hrun
    obtain ⟨mid, hmid, hrest⟩ := run_cons.mp hrun
    obtain ⟨hnot, hmeets'⟩ := hmeets mid hmid
    obtain ⟨hsound, hvalue⟩ := step_sound hs hnot hmid
    obtain ⟨hend, hvalues⟩ := ih mid st' _ hsound hmeets' hrest
    refine ⟨?_, run_cons.mpr ⟨mid.value, hvalue, hvalues⟩⟩
    simp only [outputs, hmid]
    rwa [← List.append_assoc]

/-- **The objects behave like values and every block has its place.**  Along every sequence of
    operations without such an assignment, the texts of the objects are those of `Values.step`; a
    block is live exactly if one object owns it, and then only one, or if it has been lost; and a
    block is lost by each copy or move to an object that holds a text, and by nothing else.  So what
    stays when all objects have ended are the lost blocks. -/
theorem converters_refine (prog : Program Text) (ops : List (Op Text)) (st : Converters Text)
    (hmeets : Meets (step prog) (fun st op => st.NotOwnText op) start ops)
    (hrun : run (step prog) start ops = some st) :
    run (Values.step prog) (fun _ => none) ops = some st.value ∧
      Accounted st.heap st.own (outputs (step prog) lostBy start ops) ∧
      ((∀ x, st.objects x = none) →
        ∀ p, (st.heap.block p).isSome ↔ p ∈ outputs (step prog) lostBy start ops) := by
  obtain ⟨hsound, hvalues⟩ := run_sound prog ops start st [] start_sound hmeets hrun
  rw [List.nil_append] at hsound
  refine ⟨hvalues, hsound.account, fun hgone p => ?_⟩
  rw [hsound.account.live p]
  constructor
  · rintro (⟨x, hx⟩ | hp)
    · simp [own, hgone x] at hx
    · exact hp
  · exact .inr

namespace Converters

/-- Objects 0 and 1 of `CA2U8`; the conversion keeps the text. -/
def sample : Program (List Nat) := ⟨fun _ => .CA2U8, fun _ text => some text, [40]⟩

/-- Two objects, an assignment between them, a copy over a text, and the end of both. -/
def copyOver : List (Op (List Nat)) :=
  [.construct 0 (.text [1]), .construct 1 (.c_str 0), .assign 1 (.text [2]), .copyAssign 0 1,
    .destroy 0, .destroy 1]

end Converters

theorem converters_refine_copyOver :
    ∃ st, run (step sample) start copyOver = some st ∧ (st.heap.block 0).isSome ∧
      (st.heap.block 1).isNone ∧ outputs (step sample) lostBy start copyOver = [0] ∧
      run (Values.step sample) (fun _ => none) copyOver = some st.value ∧
      Accounted st.heap st.own (outputs (step sample) lostBy start copyOver) := by
  obtain ⟨st, hrun, h0, h1, hlost⟩ : ∃ st, run (step sample) start copyOver = some st ∧
      (st.heap.block 0).isSome ∧ (st.heap.block 1).isNone ∧
      outputs (step sample) lostBy start copyOver = [0] := ⟨_, rfl, rfl, rfl, rfl⟩
  have hmeets : Meets (step sample) (fun st op => st.NotOwnText op) start copyOver := by
    refine meets_cons rfl trivial (meets_cons rfl trivial (meets_cons rfl trivial
      (meets_cons rfl trivial (meets_cons rfl trivial (meets_cons rfl trivial trivial)))))
  obtain ⟨hvalues, haccount, _⟩ := converters_refine sample copyOver st hmeets hrun
  exact ⟨st, hrun, h0, h1, hlost, hvalues, haccount⟩

end IMonPlatform.Convert
