import Mathlib.Tactic

/-!
A disk of plain files: names, the inodes they refer to, and the bytes of those. An open
handle is an inode, so a file that was renamed or removed can still be written through it.

* `Disk π`: names of type `π`; an inode has at most one name, and was allocated.
* `truncate`, `createNew`, `write`, `rename`, `remove`, `removeAll`: the effects of
  `open 'w'`, `open 'wx'`, `handle.write`, `rename`, `rm`.
* `content_*`: what a name holds after each of them, and `names_*` what it refers to.
-/

/-- Files under names of type `π`. -/
structure Disk (π : Type*) where
  names : π → Option ℕ
  bytes : ℕ → List UInt8
  next : ℕ
  inj : ∀ p q x, names p = some x → names q = some x → p = q
  lt_next : ∀ p x, names p = some x → x < next

namespace Disk

variable {π : Type*} [DecidableEq π]

/-- The disk without files. -/
def empty : Disk π := ⟨fun _ => none, fun _ => [], 0, by simp, by simp⟩

/-- The bytes under a name. -/
def content (d : Disk π) (p : π) : Option (List UInt8) := (d.names p).map d.bytes

/-- Write `data` at `offset`; a gap before it is filled with zeros. -/
def writeAt (bytes : List UInt8) (offset : ℕ) (data : List UInt8) : List UInt8 :=
  bytes.take offset ++ List.replicate (offset - bytes.length) 0 ++ data
    ++ bytes.drop (offset + data.length)

/-- `handle.write`. -/
def write (d : Disk π) (x offset : ℕ) (data : List UInt8) : Disk π :=
  { d with bytes := Function.update d.bytes x (writeAt (d.bytes x) offset data) }

/-- A new empty file under a name, `open 'wx'` where the name is free. -/
def createNew (d : Disk π) (p : π) : Disk π where
  names := Function.update d.names p (some d.next)
  bytes := Function.update d.bytes d.next []
  next := d.next + 1
  inj q r x hq hr := by
    rw [Function.update_apply] at hq hr
    split_ifs at hq hr with h1 h2 h2
    · rw [h1, h2]
    · exact absurd (d.lt_next r x hr) (by simp [← Option.some.inj hq])
    · exact absurd (d.lt_next q x hq) (by simp [← Option.some.inj hr])
    · exact d.inj q r x hq hr
  lt_next q x hq := by
    rw [Function.update_apply] at hq
    split_ifs at hq with h1
    · rw [← Option.some.inj hq]
      exact Nat.lt_succ_self _
    · exact Nat.lt_succ_of_lt (d.lt_next q x hq)

/-- An empty file under a name, emptied if it was there: `open 'w'`. -/
def truncate (d : Disk π) (p : π) : Disk π :=
  match d.names p with
  | none => d.createNew p
  | some x => { d with bytes := Function.update d.bytes x [] }

/-- Drop the names satisfying a condition. -/
def removeAll (d : Disk π) (gone : π → Bool) : Disk π where
  names p := if gone p then none else d.names p
  bytes := d.bytes
  next := d.next
  inj p q x hp hq := by
    split_ifs at hp hq
    exact d.inj p q x hp hq
  lt_next p x hp := by
    split_ifs at hp
    exact d.lt_next p x hp

/-- `rm` with `force`. -/
def remove (d : Disk π) (p : π) : Disk π := d.removeAll fun q => decide (q = p)

/-- The file `p` under the name `q`, over what was there: `rename`. -/
def rename (d : Disk π) (p q : π) : Disk π where
  names r := if r = q then d.names p else if r = p then none else d.names r
  bytes := d.bytes
  next := d.next
  inj r r' x hr hr' := by
    by_cases h1 : r = q <;> by_cases h2 : r' = q <;> simp only [h1, h2, if_true, if_false] at hr hr'
    · rw [h1, h2]
    · split_ifs at hr' with h3
      exact absurd (d.inj p r' x hr hr').symm h3
    · split_ifs at hr with h3
      exact absurd (d.inj p r x hr' hr).symm h3
    · split_ifs at hr hr'
      exact d.inj r r' x hr hr'
  lt_next r x hr := by
    split_ifs at hr
    · exact d.lt_next p x hr
    · exact d.lt_next r x hr

/-! ### Names -/

section Names

variable (d : Disk π) (p q r : π)

omit [DecidableEq π] in
@[simp] lemma names_empty : (empty : Disk π).names p = none := rfl

omit [DecidableEq π] in
@[simp] lemma names_write (x offset : ℕ) (data : List UInt8) :
    (d.write x offset data).names = d.names := rfl

lemma names_createNew :
    (d.createNew p).names q = if q = p then some d.next else d.names q := by
  rw [createNew]
  exact Function.update_apply _ _ _ _

omit [DecidableEq π] in
lemma names_removeAll (gone : π → Bool) :
    (d.removeAll gone).names q = if gone q then none else d.names q := rfl

lemma names_remove : (d.remove p).names q = if q = p then none else d.names q := by
  simp [remove, names_removeAll]

lemma names_rename : (d.rename p q).names r =
    if r = q then d.names p else if r = p then none else d.names r := rfl

lemma names_truncate_of_ne (hq : q ≠ p) : (d.truncate p).names q = d.names q := by
  rw [truncate]
  split
  · rw [names_createNew, if_neg hq]
  · rfl

/-- A file opened with `open 'w'`: the one that was there, or a new one. -/
lemma exists_truncate : ∃ x, (d.truncate p).names p = some x ∧ (d.truncate p).bytes x = [] ∧
    (d.names p = some x ∨ x = d.next) := by
  rw [truncate]
  split
  · exact ⟨d.next, by simp [names_createNew], Function.update_self _ _ _, .inr rfl⟩
  case h_2 x hx => exact ⟨x, hx, Function.update_self _ _ _, .inl hx⟩

end Names

/-! ### Contents -/

/-- A write never shortens a file. -/
lemma length_writeAt (bytes : List UInt8) (offset : ℕ) (data : List UInt8) :
    (writeAt bytes offset data).length = max bytes.length (offset + data.length) := by
  simp only [writeAt, List.length_append, List.length_take, List.length_replicate,
    List.length_drop]
  omega

/-- A write at the end appends. -/
lemma writeAt_length (bytes data : List UInt8) :
    writeAt bytes bytes.length data = bytes ++ data := by
  rw [writeAt, List.take_length, Nat.sub_self, List.replicate_zero, List.append_nil,
    List.drop_eq_nil_of_le (Nat.le_add_right _ _), List.append_nil]

section Contents

variable (d : Disk π) {p q r : π}

omit [DecidableEq π] in
lemma content_write {x : ℕ} (offset : ℕ) (data : List UInt8) (h : d.names p ≠ some x) :
    (d.write x offset data).content p = d.content p := by
  rw [content, content, names_write]
  cases hp : d.names p with
  | none => rfl
  | some y =>
      have hy : y ≠ x := fun hyx => h (by rw [hp, hyx])
      simp [write, hy]

lemma content_createNew (hq : q ≠ p) : (d.createNew p).content q = d.content q := by
  rw [content, content, names_createNew, if_neg hq]
  cases hx : d.names q with
  | none => rfl
  | some x =>
      have hne : x ≠ d.next := (d.lt_next q x hx).ne
      simp [createNew, hne]

lemma content_truncate (hq : q ≠ p) : (d.truncate p).content q = d.content q := by
  rw [truncate]
  split
  case h_1 hp => exact d.content_createNew hq
  case h_2 x hx =>
    rw [content, content]
    cases hy : d.names q with
    | none => rfl
    | some y =>
        have hne : y ≠ x := fun hyx => hq (d.inj q p x (hyx ▸ hy) hx)
        simp [hne]

omit [DecidableEq π] in
lemma content_removeAll (gone : π → Bool) (hq : gone q = false) :
    (d.removeAll gone).content q = d.content q := by
  rw [content, content, names_removeAll, if_neg (by simp [hq])]
  rfl

lemma content_remove (hq : q ≠ p) : (d.remove p).content q = d.content q :=
  d.content_removeAll _ (by simp [hq])

lemma content_rename_self : (d.rename p q).content q = d.content p := by
  rw [content, content, names_rename, if_pos rfl]
  rfl

lemma content_rename (hq : r ≠ q) (hp : r ≠ p) : (d.rename p q).content r = d.content r := by
  rw [content, content, names_rename, if_neg hq, if_neg hp]
  rfl

end Contents

end Disk
