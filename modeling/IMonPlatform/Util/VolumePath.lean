import IMonPlatform.Logger.Configuration
import IMonPlatform.Util.StringReplace
import Mathlib.Data.List.Nodup

/-!
# Volume paths in `GetProcessPathFromPID`

The image path of a process begins with the device of its volume.  The loop applies every entry of
the map, in the order of its hash table, to the whole path: an entry may match a part of the name of
another device, and the rest of the path.

* `VolumePath`, `VolumeMap` — the keys, and the map with its entries in some order.
* `dosPath` — the loop.
* `Translates` — the drive of the path's device comes out in front of the rest, in every order.
* `translates_iff` — exactly if no other device stands in the path, and its own one only once.
-/

set_option autoImplicit false

namespace IMonPlatform

open Format (CharT)
open Logger (Text text)
open Replace

def BACKSLASH : CharT := '\\'.toNat

/-- `\Device\Name` -/
structure VolumePath where
  name : Text
  noBackslash : BACKSLASH ∉ name
  deriving DecidableEq

def VolumePath.path (v : VolumePath) : Text := text "\\Device" ++ BACKSLASH :: v.name

/-- `chDrive` -/
def dosDrive (driveLetter : Fin 26) : Text := ['A'.toNat + driveLetter, ':'.toNat]

/-- `_mapVolumePathToDosPath` -/
structure VolumeMap where
  entries : List (VolumePath × Fin 26)
  distinct : (entries.map Prod.fst).Nodup

/-- The loop over the map, in the order of the list. -/
def dosPath (order : List (VolumePath × Fin 26)) (sPath : Text) : Option Text :=
  order.foldlM (fun sPath it => string_replace_all sPath it.1.path (dosDrive it.2)) sPath

/-- The rest of an image path, from the backslash behind the device on. -/
def ledRest (rest : Text) : Text := BACKSLASH :: rest

/-- In every order of the map the path comes out on the drive of its device. -/
def Translates (m : VolumeMap) (v : VolumePath) (d : Fin 26) (rest : Text) : Prop :=
  ∀ order, order.Perm m.entries →
    dosPath order (v.path ++ ledRest rest) = some (dosDrive d ++ ledRest rest)

/-! ## Texts -/

theorem drive_noBackslash (d : Fin 26) : BACKSLASH ∉ dosDrive d := by
  have hd := d.isLt
  simp only [dosDrive, List.mem_cons, List.not_mem_nil, or_false, not_or]
  show ¬ (92 : Nat) = 65 + d.val ∧ ¬ (92 : Nat) = 58
  omega

theorem path_ne_nil (v : VolumePath) : v.path ≠ [] := List.cons_ne_nil _ _

theorem drive_shorter (v : VolumePath) (d : Fin 26) : (dosDrive d).length < v.path.length := by
  show 2 < (text "Device" ++ BACKSLASH :: v.name).length + 1
  rw [List.length_append]
  show 2 < 6 + _ + 1
  omega

/-- What a single entry makes of a path. -/
def translate (it : VolumePath × Fin 26) (sPath : Text) : Text :=
  replaceAll it.1.path (dosDrive it.2) sPath

/-- Cells that are no backslash are passed. -/
theorem translate_append (it : VolumePath × Fin 26) {before : Text} (h : BACKSLASH ∉ before)
    (s : Text) : translate it (before ++ s) = before ++ translate it s :=
  replaceAll_append_of_notMem h s

theorem translate_of_notInfix {it : VolumePath × Fin 26} {s : Text} (h : ¬ it.1.path <:+: s) :
    translate it s = s := replaceAll_of_notInfix h

/-- A device is not in the drive in front of the rest if it is not in the rest. -/
theorem translate_translated {it : VolumePath × Fin 26} {s : Text} (h : ¬ it.1.path <:+: s)
    (d : Fin 26) : translate it (dosDrive d ++ s) = dosDrive d ++ s := by
  rw [translate_append it (drive_noBackslash d), translate_of_notInfix h]

theorem translate_own (v : VolumePath) (d : Fin 26) (s : Text) :
    translate (v, d) (v.path ++ s) = dosDrive d ++ translate (v, d) s :=
  replaceAll_occurrence (path_ne_nil v) s

theorem translate_length (it : VolumePath × Fin 26) (s : Text) :
    (translate it s).length ≤ s.length ∧
      (it.1.path <:+: s → (translate it s).length < s.length) :=
  replaceAll_length (drive_shorter it.1 it.2) s

/-! ## Runs of the loop -/

section Runs

variable {order : List (VolumePath × Fin 26)} {s : Text}

/-- What the loop makes of a path. -/
def translateAll (order : List (VolumePath × Fin 26)) (s : Text) : Text :=
  order.foldl (fun s it => translate it s) s

theorem dosPath_eq (order : List (VolumePath × Fin 26)) (sPath : Text) :
    dosPath order sPath = some (translateAll order sPath) := by
  induction order generalizing sPath with
  | nil => rfl
  | cons it order ih =>
    rw [dosPath, List.foldlM_cons, string_replace_all_eq (path_ne_nil it.1)]
    exact ih _

theorem translateAll_cons (it : VolumePath × Fin 26) (order : List (VolumePath × Fin 26))
    (s : Text) : translateAll (it :: order) s = translateAll order (translate it s) := rfl

theorem translateAll_append (before after : List (VolumePath × Fin 26)) (s : Text) :
    translateAll (before ++ after) s = translateAll after (translateAll before s) :=
  List.foldl_append

theorem translateAll_unchanged (h : ∀ it ∈ order, translate it s = s) :
    translateAll order s = s := by
  induction order with
  | nil => rfl
  | cons it order ih =>
    rw [translateAll_cons, h it List.mem_cons_self]
    exact ih fun it' hit => h it' (List.mem_cons_of_mem it hit)

/-- What every entry keeps, the loop keeps. -/
theorem translateAll_keeps {P : Text → Prop} (hstep : ∀ it s, P s → P (translate it s))
    (order : List (VolumePath × Fin 26)) {s : Text} (h : P s) : P (translateAll order s) := by
  induction order generalizing s with
  | nil => exact h
  | cons it order ih => exact ih (hstep it s h)

theorem translateAll_length (order : List (VolumePath × Fin 26)) (s : Text) :
    (translateAll order s).length ≤ s.length :=
  translateAll_keeps (P := fun t => t.length ≤ s.length)
    (fun it t ht => Nat.le_trans (translate_length it t).1 ht) order (Nat.le_refl _)

/-- A path that has been translated to too few cells does not come back to its length. -/
theorem translateAll_ne {t : Text} (h : s.length < t.length) : translateAll order s ≠ t := by
  intro heq
  have hle := translateAll_length order s
  rw [heq] at hle
  omega

end Runs

/-! ## Where a device stands in a path -/

section Places

variable {u v : VolumePath} {rest before after : Text}

/-- The backslashes of a device path are its first cell and the one in front of the name. -/
theorem backslash_place {i : Nat} (h : v.path[i]? = some BACKSLASH) : i = 0 ∨ i = 7 := by
  match i, h with
  | 0, _ => exact .inl rfl
  | 1, h | 2, h | 3, h | 4, h | 5, h | 6, h => exact absurd (Option.some.inj h) (by decide)
  | 7, _ => exact .inr rfl
  | i + 8, h =>
    have hname : v.name[i]? = some BACKSLASH := h
    exact absurd (List.mem_of_getElem? hname) v.noBackslash

theorem eq_of_name (h : u.name = v.name) : u = v := by
  obtain ⟨name, hname⟩ := u
  obtain ⟨name', hname'⟩ := v
  cases h
  rfl

/-- A name in front of a path is the beginning of the name there. -/
theorem name_start (hne : u ≠ v) (h : u.path ++ after = v.path ++ ledRest rest) :
    ∃ x more, x ≠ BACKSLASH ∧ after = x :: more := by
  have hname : u.name ++ after = v.name ++ BACKSLASH :: rest := by
    simpa [VolumePath.path, ledRest] using h
  rcases List.append_eq_append_iff.mp hname with ⟨more, hv, hafter⟩ | ⟨more, hu, hrest⟩
  · cases more with
    | nil =>
      rw [List.append_nil] at hv
      exact absurd (eq_of_name hv.symm) hne
    | cons x more =>
      refine ⟨x, more ++ BACKSLASH :: rest, ?_, hafter⟩
      rintro rfl
      exact v.noBackslash (hv ▸ by simp)
  · cases more with
    | nil =>
      rw [List.append_nil] at hu
      exact absurd (eq_of_name hu) hne
    | cons x more =>
      have hx : x = BACKSLASH := (List.cons.inj hrest).1.symm
      exact absurd (show BACKSLASH ∈ u.name from hu ▸ hx ▸ by simp) u.noBackslash

/-- A device that begins inside another one begins in front of its name. -/
theorem inner_start (hpos : before ≠ []) (hlt : before.length < v.path.length)
    (h : v.path ++ ledRest rest = before ++ u.path ++ after) : before = text "\\Device" := by
  have hcell : v.path[before.length]? = some BACKSLASH := by
    rw [← List.getElem?_append_left hlt, h, List.append_assoc,
      List.getElem?_append_right (Nat.le_refl _), Nat.sub_self]
    rfl
  have hlength : before.length = 7 := by
    rcases backslash_place hcell with hzero | hseven
    · exact absurd (List.length_eq_zero_iff.mp hzero) hpos
    · exact hseven
  have htake := congrArg (List.take 7) h
  rw [List.append_assoc, List.take_append_of_le_length (by omega), ← hlength, List.take_left,
    hlength] at htake
  rw [← htake]
  rfl

end Places

/-! ## What a wrong entry leaves -/

/-- A drive in front of the end of a name. -/
def DriveInName (s : Text) : Prop := ∃ d x t, x ≠ BACKSLASH ∧ s = dosDrive d ++ x :: t

/-- A device without the backslash in front of its name. -/
def DeviceBroken (s : Text) : Prop := ∃ x t, x ≠ BACKSLASH ∧ s = text "\\Device" ++ x :: t

/-- A device in front of a path with a longer name. -/
theorem driveInName_front {u v : VolumePath} {rest after : Text} (hne : u ≠ v)
    (h : v.path ++ ledRest rest = u.path ++ after) (e : Fin 26) :
    DriveInName (translate (u, e) (v.path ++ ledRest rest)) := by
  obtain ⟨x, more, hx, rfl⟩ := name_start hne h.symm
  refine ⟨e, x, translate (u, e) more, hx, ?_⟩
  rw [h, translate_own]
  exact congrArg _ (replaceAll_cons_of_ne hx more)

/-- A drive behind the first cells of a device. -/
theorem deviceBroken_drive (e : Fin 26) (t : Text) :
    DeviceBroken (text "\\Device" ++ dosDrive e ++ t) := by
  refine ⟨'A'.toNat + e, ':'.toNat :: t, ?_, ?_⟩
  · intro heq
    exact drive_noBackslash e (heq ▸ List.mem_cons_self)
  · rw [List.append_assoc]
    rfl

theorem driveInName_translate (it : VolumePath × Fin 26) (s : Text) (h : DriveInName s) :
    DriveInName (translate it s) := by
  obtain ⟨d, x, t, hx, rfl⟩ := h
  have hfree : BACKSLASH ∉ dosDrive d ++ [x] := by
    rw [List.mem_append, List.mem_singleton, not_or]
    exact ⟨drive_noBackslash d, Ne.symm hx⟩
  have hsplit : dosDrive d ++ x :: t = dosDrive d ++ [x] ++ t := by simp
  refine ⟨d, x, translate it t, hx, ?_⟩
  rw [hsplit, translate_append it hfree]
  simp

theorem deviceBroken_translate (it : VolumePath × Fin 26) (s : Text) (h : DeviceBroken s) :
    DeviceBroken (translate it s) := by
  obtain ⟨x, t, hx, rfl⟩ := h
  have hstart : ¬ it.1.path <+: text "\\Device" ++ x :: t := by
    rintro ⟨after, hafter⟩
    have hseven := congrArg (fun s : Text => s[7]?) hafter
    exact hx (Option.some.inj hseven).symm
  have hfree : BACKSLASH ∉ text "Device" ++ [x] := by
    rw [List.mem_append, List.mem_singleton, not_or]
    exact ⟨by decide, Ne.symm hx⟩
  have hsplit : text "\\Device" ++ x :: t = BACKSLASH :: (text "Device" ++ [x] ++ t) := by
    rw [List.append_assoc]
    rfl
  refine ⟨x, translate it t, hx, ?_⟩
  rw [hsplit] at hstart ⊢
  rw [translate, replaceAll_cons hstart]
  rw [show replaceAll it.1.path (dosDrive it.2) (text "Device" ++ [x] ++ t) =
    text "Device" ++ [x] ++ translate it t from translate_append it hfree t, List.append_assoc]
  rfl

theorem driveInName_ne {s : Text} (h : DriveInName s) (d : Fin 26) (rest : Text) :
    s ≠ dosDrive d ++ ledRest rest := by
  rintro heq
  obtain ⟨d', x, t, hx, rfl⟩ := h
  have hrest := (List.append_inj heq rfl).2
  exact hx (List.cons.inj hrest).1

theorem deviceBroken_ne {s : Text} (h : DeviceBroken s) (d : Fin 26) (rest : Text) :
    s ≠ dosDrive d ++ ledRest rest := by
  rintro heq
  obtain ⟨x, t, -, rfl⟩ := h
  have hhead : BACKSLASH = 'A'.toNat + d := (List.cons.inj heq).1
  exact drive_noBackslash d (hhead ▸ List.mem_cons_self)

/-! ## The orders of the map -/

section Orders

variable {m : VolumeMap} {u v : VolumePath} {d e : Fin 26} {rest : Text}

theorem translates_of_absent (hmem : (v, d) ∈ m.entries)
    (hother : ∀ it ∈ m.entries, it.1 ≠ v → ¬ it.1.path <:+: v.path ++ ledRest rest)
    (hown : ¬ v.path <:+: ledRest rest) : Translates m v d rest := by
  intro order horder
  obtain ⟨before, after, rfl⟩ := List.append_of_mem (horder.mem_iff.mpr hmem)
  have hdistinct : ((before ++ (v, d) :: after).map Prod.fst).Nodup :=
    (horder.map Prod.fst).nodup_iff.mpr m.distinct
  rw [List.map_append, List.map_cons, List.nodup_middle, List.nodup_cons, ← List.map_append]
    at hdistinct
  have habsent : ∀ it ∈ before ++ after, ¬ it.1.path <:+: v.path ++ ledRest rest := by
    intro it hit
    refine hother it (horder.mem_iff.mp ?_) ?_
    · rw [List.mem_append] at hit ⊢
      exact hit.imp_right (List.mem_cons_of_mem _)
    · intro heq
      have hin : it.1 ∈ (before ++ after).map Prod.fst := List.mem_map_of_mem hit
      exact hdistinct.1 (heq ▸ hin)
  have hbefore : translateAll before (v.path ++ ledRest rest) = v.path ++ ledRest rest :=
    translateAll_unchanged fun it hit =>
      translate_of_notInfix (habsent it (List.mem_append_left after hit))
  have hafter : translateAll after (dosDrive d ++ ledRest rest) = dosDrive d ++ ledRest rest := by
    refine translateAll_unchanged fun it hit => translate_translated (fun hin => ?_) d
    exact habsent it (List.mem_append_right before hit)
      (hin.trans (List.suffix_append v.path _).isInfix)
  rw [dosPath_eq, translateAll_append, hbefore, translateAll_cons, translate_own,
    translate_of_notInfix hown, hafter]

/-- The result of every order, as a list that the loop goes through. -/
theorem Translates.eq (h : Translates m v d rest) {order : List (VolumePath × Fin 26)}
    (horder : order.Perm m.entries) :
    translateAll order (v.path ++ ledRest rest) = dosDrive d ++ ledRest rest := by
  have := h order horder
  rw [dosPath_eq] at this
  exact Option.some.inj this

/-- With its own entry first, the device must not come again. -/
theorem Translates.own (h : Translates m v d rest) (hmem : (v, d) ∈ m.entries) :
    ¬ v.path <:+: ledRest rest := by
  intro hin
  have hresult := h.eq (List.perm_cons_erase hmem).symm
  rw [translateAll_cons, translate_own] at hresult
  refine translateAll_ne ?_ hresult
  have hlt := (translate_length (v, d) (ledRest rest)).2 hin
  rw [List.length_append, List.length_append]
  omega

/-- With its own entry and then another one first, the other device must not be in the rest. -/
theorem Translates.behind (h : Translates m v d rest) (hmem : (v, d) ∈ m.entries)
    (hu : (u, e) ∈ m.entries) (hne : u ≠ v) : ¬ u.path <:+: ledRest rest := by
  intro hin
  have hpair : (u, e) ≠ (v, d) := fun heq => hne (Prod.mk.inj heq).1
  have hu' : (u, e) ∈ m.entries.erase (v, d) := (List.mem_erase_of_ne hpair).mpr hu
  have horder : ((v, d) :: (u, e) :: (m.entries.erase (v, d)).erase (u, e)).Perm m.entries :=
    ((List.perm_cons_erase hmem).trans ((List.perm_cons_erase hu').cons (v, d))).symm
  have hresult := h.eq horder
  have hkept : translate (v, d) (ledRest rest) = ledRest rest :=
    translate_of_notInfix (h.own hmem)
  rw [translateAll_cons, translateAll_cons, translate_own, hkept,
    translate_append _ (drive_noBackslash d)] at hresult
  refine translateAll_ne ?_ hresult
  have hlt := (translate_length (u, e) (ledRest rest)).2 hin
  rw [List.length_append, List.length_append]
  omega

/-- With another entry first, its device must not begin in that of the path. -/
theorem Translates.other (h : Translates m v d rest) (hmem : (v, d) ∈ m.entries)
    (hu : (u, e) ∈ m.entries) (hne : u ≠ v) : ¬ u.path <:+: v.path ++ ledRest rest := by
  intro hin
  have hresult := h.eq (List.perm_cons_erase hu).symm
  rw [translateAll_cons] at hresult
  cases hfirst : firstAt u.path (v.path ++ ledRest rest) with
  | none => exact firstAt_none hfirst hin
  | some i =>
    obtain ⟨before, after, hsplit, -, hnone⟩ := firstAt_parts hfirst
    have hstep : translate (u, e) (v.path ++ ledRest rest) =
        before ++ dosDrive e ++ translate (u, e) after := by
      rw [hsplit] at hnone ⊢
      exact replaceAll_before (path_ne_nil u) hnone
    rcases Nat.lt_or_ge before.length v.path.length with hlt | hge
    · rcases before with _ | ⟨c, before⟩
      · have hwrong := driveInName_front hne hsplit e
        exact driveInName_ne (translateAll_keeps driveInName_translate _ hwrong) d rest hresult
      · have hdevice := inner_start (List.cons_ne_nil c before) hlt hsplit
        have hwrong : DeviceBroken (translate (u, e) (v.path ++ ledRest rest)) := by
          rw [hstep, hdevice]
          exact deviceBroken_drive e _
        exact deviceBroken_ne (translateAll_keeps deviceBroken_translate _ hwrong) d rest hresult
    · refine h.behind hmem hu hne ⟨before.drop v.path.length, after, ?_⟩
      have hdrop := congrArg (List.drop v.path.length) hsplit
      rw [List.drop_left, List.append_assoc, List.drop_append_of_le_length hge] at hdrop
      rw [hdrop, List.append_assoc]

/-- **The drive of its device comes out in front of the unchanged rest, in every order of the map,
exactly if no other device of the map stands in the path and its own one stands there once.** -/
theorem translates_iff (m : VolumeMap) {v : VolumePath} {d : Fin 26} (hmem : (v, d) ∈ m.entries)
    (rest : Text) :
    Translates m v d rest ↔
      (∀ it ∈ m.entries, it.1 ≠ v → ¬ it.1.path <:+: v.path ++ ledRest rest) ∧
        ¬ v.path <:+: ledRest rest := by
  constructor
  · intro h
    exact ⟨fun it hit hne => h.other hmem hit hne, h.own hmem⟩
  · rintro ⟨hother, hown⟩
    exact translates_of_absent hmem hother hown

end Orders

/-- `\Device\HarddiskVolume1` is drive C and `\Device\HarddiskVolume10` drive D. -/
def tenVolumes : VolumeMap where
  entries := [(⟨text "HarddiskVolume1", by decide⟩, 2), (⟨text "HarddiskVolume10", by decide⟩, 3)]
  distinct := by decide

theorem first_volume_translates :
    Translates tenVolumes ⟨text "HarddiskVolume1", by decide⟩ 2 (text "app.exe") :=
  (translates_iff tenVolumes (by decide) (text "app.exe")).mpr ⟨by decide, by decide⟩

/-- The entry of the first volume comes first and matches in the name of the tenth. -/
theorem tenth_volume_lost :
    dosPath tenVolumes.entries (text "\\Device\\HarddiskVolume10\\app.exe") =
        some (text "C:0\\app.exe") ∧
      ¬ Translates tenVolumes ⟨text "HarddiskVolume10", by decide⟩ 3 (text "app.exe") := by
  have hrun : dosPath tenVolumes.entries (text "\\Device\\HarddiskVolume10\\app.exe") =
      some (text "C:0\\app.exe") := by decide
  refine ⟨hrun, fun h => ?_⟩
  have hdrive := hrun.symm.trans (h tenVolumes.entries (List.Perm.refl _))
  exact absurd (Option.some.inj hdrive) (by decide)

end IMonPlatform
