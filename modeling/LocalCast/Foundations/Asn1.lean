import Mathlib.Tactic

/-!
Reading the distinguished encoding (DER) of ASN.1, as far as certificates need it.

* `natural`: the number that bytes stand for, the most significant first; `bytesOf`, the bytes of a
  number, without leading zeros.
* `readElement`: a tag, a length and as many bytes; a length is refused unless it is written as
  short as it can be. `elements` reads one after the other, `readWhole` exactly one.
* `readInteger`, `readBits`, `readIdentifier`: the contents of the primitive types. An integer is
  refused where it begins with nine equal bits, an arc where it begins with a zero digit.
* `readLength_short`, `readLength_long`, `subidentifiers_arc`: what the encodings read as.
-/

namespace Asn1

abbrev Bytes := List UInt8

/-! ### Numbers -/

/-- The number that bytes stand for. -/
def natural (bytes : Bytes) : ℕ := Nat.ofDigits 256 (bytes.reverse.map UInt8.toNat)

/-- The bytes of a number. -/
def bytesOf (n : ℕ) : Bytes := (Nat.digits 256 n).reverse.map Nat.toUInt8

/-! ### Elements -/

/-- The length at the start of some bytes, and what follows it. -/
def readLength : Bytes → Option (ℕ × Bytes)
  | [] => none
  | b :: rest =>
      let n := b.toNat - 128
      let size := rest.take n
      if b < 128 then some (b.toNat, rest)
      else if n = 0 ∨ n = 127 ∨ rest.length < n ∨ size.head? = some 0 ∨ natural size < 128 then none
      else some (natural size, rest.drop n)

/-- A tag with its contents, and what follows them. Tags of more than one byte are not read. -/
def readElement : Bytes → Option ((UInt8 × Bytes) × Bytes)
  | [] => none
  | tag :: rest =>
      if tag.toNat % 32 = 31 then none
      else (readLength rest).bind fun (n, rest) =>
        if rest.length < n then none else some ((tag, rest.take n), rest.drop n)

/-- At most so many elements, one after the other. -/
def readElements : ℕ → Bytes → Option (List (UInt8 × Bytes))
  | _, [] => some []
  | 0, _ :: _ => none
  | fuel + 1, b :: rest => (readElement (b :: rest)).bind fun (element, rest) =>
      (readElements fuel rest).map (element :: ·)

def elements (bytes : Bytes) : Option (List (UInt8 × Bytes)) := readElements bytes.length bytes

/-- The contents of the one element there is, which has that tag. -/
def readWhole (tag : UInt8) (bytes : Bytes) : Option Bytes :=
  (readElement bytes).bind fun (element, rest) =>
    if element.1 = tag ∧ rest = [] then some element.2 else none

/-! ### Contents -/

/-- An `INTEGER`, in two's complement. -/
def readInteger : Bytes → Option ℤ
  | [] => none
  | b :: rest =>
      if (b = 0 ∧ rest.head?.any (· < 128)) ∨ (b = 255 ∧ rest.head?.any (128 ≤ ·)) then none
      else if b < 128 then some (natural (b :: rest))
      else some (natural (b :: rest) - 256 ^ (rest.length + 1))

/-- A `BIT STRING`: how many bits of the last byte do not count, which are zero, and the bytes. -/
def readBits : Bytes → Option (ℕ × Bytes)
  | [] => none
  | unused :: bytes =>
      if 7 < unused ∨ (bytes = [] ∧ unused ≠ 0) ∨
          bytes.getLast?.any (fun b => b.toNat % 2 ^ unused.toNat ≠ 0) then none
      else some (unused.toNat, bytes)

/-- The numbers of an `OBJECT IDENTIFIER`, seven bits a byte, `acc` being what has been read of the
first one. -/
def subidentifiers : Option ℕ → Bytes → Option (List ℕ)
  | none, [] => some []
  | some _, [] => none
  | acc, b :: rest =>
      let value := 128 * acc.getD 0 + b.toNat % 128
      if b < 128 then (subidentifiers none rest).map (value :: ·)
      else if acc = none ∧ b = 128 then none
      else subidentifiers (some value) rest

/-- The first two arcs are written as one number. -/
def firstArcs (n : ℕ) : List ℕ :=
  if n < 40 then [0, n] else if n < 80 then [1, n - 40] else [2, n - 80]

def readIdentifier (bytes : Bytes) : Option (List ℕ) :=
  (subidentifiers none bytes).bind fun
    | [] => none
    | n :: arcs => some (firstArcs n ++ arcs)

/-! ### Digits -/

lemma toNat_toUInt8 {n : ℕ} (h : n < 256) : n.toUInt8.toNat = n := by
  rw [Nat.toUInt8, UInt8.toNat_ofNat', Nat.mod_eq_of_lt h]

lemma toUInt8_lt_iff {n : ℕ} (h : n < 256) : n.toUInt8 < 128 ↔ n < 128 := by
  rw [UInt8.lt_iff_toNat_lt, toNat_toUInt8 h]
  rfl

/-- A number comes back from its bytes. -/
lemma natural_bytesOf (n : ℕ) : natural (bytesOf n) = n := by
  have hsame : (bytesOf n).reverse.map UInt8.toNat = Nat.digits 256 n := by
    rw [bytesOf, ← List.map_reverse, List.reverse_reverse, List.map_map]
    refine (List.map_congr_left fun d hd => ?_).trans (List.map_id _)
    exact toNat_toUInt8 (Nat.digits_lt_base (by decide) hd)
  rw [natural, hsame, Nat.ofDigits_digits]

/-- The digits of a number, the most significant first, begin with none that is zero. -/
lemma digits_reverse (base : ℕ) {n : ℕ} (h : n ≠ 0) :
    ∃ d ds, (Nat.digits base n).reverse = d :: ds ∧ d ∈ Nat.digits base n ∧ d ≠ 0 := by
  have hne : Nat.digits base n ≠ [] := Nat.digits_ne_nil_iff_ne_zero.mpr h
  refine ⟨(Nat.digits base n).getLast hne, (Nat.digits base n).dropLast.reverse, ?_,
    List.getLast_mem hne, Nat.getLast_digit_ne_zero base h⟩
  conv_lhs => rw [← List.dropLast_append_getLast hne]
  rw [List.reverse_append]
  rfl

lemma bytesOf_cons {n : ℕ} (h : n ≠ 0) : ∃ b rest, bytesOf n = b :: rest ∧ b ≠ 0 := by
  obtain ⟨d, ds, hdigits, hmem, hd⟩ := digits_reverse 256 h
  refine ⟨d.toUInt8, ds.map Nat.toUInt8, by rw [bytesOf, hdigits, List.map_cons], ?_⟩
  intro hzero
  have hnat := congrArg UInt8.toNat hzero
  rw [toNat_toUInt8 (Nat.digits_lt_base (by decide) hmem)] at hnat
  exact hd hnat

lemma length_bytesOf_le_iff {n k : ℕ} : (bytesOf n).length ≤ k ↔ n < 256 ^ k := by
  rw [bytesOf, List.length_map, List.length_reverse]
  exact Nat.digits_length_le_iff (by decide) n

/-! ### Lengths -/

lemma readLength_short {n : ℕ} (h : n < 128) (rest : Bytes) :
    readLength (n.toUInt8 :: rest) = some (n, rest) := by
  have hlt : n < 256 := by omega
  rw [readLength, if_pos ((toUInt8_lt_iff hlt).mpr h), toNat_toUInt8 hlt]

lemma readLength_long {n : ℕ} (h : 128 ≤ n) (hsize : (bytesOf n).length < 127) (rest : Bytes) :
    readLength ((128 + (bytesOf n).length).toUInt8 :: (bytesOf n ++ rest)) = some (n, rest) := by
  obtain ⟨b, bs, hbytes, hb⟩ := bytesOf_cons (n := n) (by omega)
  have hpos : 0 < (bytesOf n).length := by rw [hbytes, List.length_cons]; omega
  have hlt : 128 + (bytesOf n).length < 256 := by omega
  have hhead : (bytesOf n).head? ≠ some 0 := by
    rw [hbytes, List.head?_cons]
    exact fun h => hb (Option.some.inj h)
  rw [readLength, if_neg (by rw [toUInt8_lt_iff hlt]; omega), toNat_toUInt8 hlt,
    Nat.add_sub_cancel_left, List.take_left, List.drop_left, if_neg, natural_bytesOf]
  rw [natural_bytesOf, List.length_append]
  rintro (h0 | h127 | hshort | hzero | hsmall)
  · omega
  · omega
  · omega
  · exact hhead hzero
  · omega

/-! ### Arcs -/

/-- An arc in seven bits a byte, all but the last marked. -/
def arcBytes (n : ℕ) : Bytes :=
  ((Nat.digits 128 (n / 128)).reverse.map fun d => (128 + d).toUInt8) ++ [(n % 128).toUInt8]

/-- What digits amount to, behind others. -/
def behind (acc : ℕ) (ds : List ℕ) : ℕ := ds.foldl (fun v d => 128 * v + d) acc

lemma behind_digits (n : ℕ) : behind 0 (Nat.digits 128 n).reverse = n :=
  calc behind 0 (Nat.digits 128 n).reverse
      = (Nat.digits 128 n).foldr (fun d v => 128 * v + d) 0 := List.foldl_reverse
    _ = Nat.ofDigits 128 (Nat.digits 128 n) := by
        rw [Nat.ofDigits_eq_foldr]
        congr 1
        funext d v
        exact add_comm _ _
    _ = n := Nat.ofDigits_digits 128 n

lemma subidentifiers_cons (acc : Option ℕ) (b : UInt8) (rest : Bytes) :
    subidentifiers acc (b :: rest) =
      if b < 128 then
        (subidentifiers none rest).map ((128 * acc.getD 0 + b.toNat % 128) :: ·)
      else if acc = none ∧ b = 128 then none
      else subidentifiers (some (128 * acc.getD 0 + b.toNat % 128)) rest := by
  cases acc with
  | none => rfl
  | some v => rfl

/-- The last digit of an arc. -/
lemma subidentifiers_last {d : ℕ} (h : d < 128) (acc : Option ℕ) (rest : Bytes) :
    subidentifiers acc (d.toUInt8 :: rest) =
      (subidentifiers none rest).map ((128 * acc.getD 0 + d) :: ·) := by
  have hlt : d < 256 := by omega
  rw [subidentifiers_cons, if_pos ((toUInt8_lt_iff hlt).mpr h), toNat_toUInt8 hlt,
    Nat.mod_eq_of_lt h]

/-- A digit that is not the last. -/
lemma subidentifiers_marked {d : ℕ} (h : d < 128) (acc : Option ℕ) (hacc : acc ≠ none ∨ d ≠ 0)
    (rest : Bytes) : subidentifiers acc ((128 + d).toUInt8 :: rest) =
      subidentifiers (some (128 * acc.getD 0 + d)) rest := by
  have hlt : 128 + d < 256 := by omega
  have hzero : ¬ (acc = none ∧ (128 + d).toUInt8 = 128) := by
    rintro ⟨hnone, hbyte⟩
    have hnat := congrArg UInt8.toNat hbyte
    rw [toNat_toUInt8 hlt] at hnat
    rcases hacc with hacc | hd
    · exact hacc hnone
    · exact hd (Nat.add_left_cancel hnat)
  rw [subidentifiers_cons, if_neg (by rw [toUInt8_lt_iff hlt]; omega), if_neg hzero,
    toNat_toUInt8 hlt, Nat.add_mod_left, Nat.mod_eq_of_lt h]

lemma subidentifiers_behind {ds : List ℕ} (h : ∀ d ∈ ds, d < 128) (v : ℕ) (rest : Bytes) :
    subidentifiers (some v) ((ds.map fun d => (128 + d).toUInt8) ++ rest) =
      subidentifiers (some (behind v ds)) rest := by
  induction ds generalizing v with
  | nil => rfl
  | cons d ds ih =>
      have hd := h d List.mem_cons_self
      rw [List.map_cons, List.cons_append,
        subidentifiers_marked hd _ (.inl (Option.some_ne_none v)), ih (fun x hx => h x (List.mem_cons_of_mem d hx))]
      rfl

/-- An arc behind the beginning of another is taken for the rest of it. -/
lemma subidentifiers_some_arc (v n : ℕ) (rest : Bytes) :
    ∃ m, subidentifiers (some v) (arcBytes n ++ rest) =
      (subidentifiers none rest).map (m :: ·) := by
  have hdigits : ∀ d ∈ (Nat.digits 128 (n / 128)).reverse, d < 128 :=
    fun d hd => Nat.digits_lt_base (by decide) (List.mem_reverse.mp hd)
  rw [arcBytes, List.append_assoc, subidentifiers_behind hdigits]
  exact ⟨_, subidentifiers_last (Nat.mod_lt _ (by decide)) _ rest⟩

/-- **An arc** reads as itself. -/
lemma subidentifiers_arc (n : ℕ) (rest : Bytes) :
    subidentifiers none (arcBytes n ++ rest) = (subidentifiers none rest).map (n :: ·) := by
  have hdigits : ∀ d ∈ (Nat.digits 128 (n / 128)).reverse, d < 128 :=
    fun d hd => Nat.digits_lt_base (by decide) (List.mem_reverse.mp hd)
  have hlast := subidentifiers_last (Nat.mod_lt n (show 0 < 128 by decide))
  by_cases hsmall : n / 128 = 0
  · have hempty : (Nat.digits 128 (n / 128)).reverse = [] := by rw [hsmall]; rfl
    have hn : n % 128 = n := by omega
    rw [arcBytes, hempty, List.map_nil, List.nil_append, List.singleton_append, hlast none, hn,
      Option.getD_none, Nat.mul_zero, Nat.zero_add]
  · have hvalue := behind_digits (n / 128)
    obtain ⟨d, ds, hreverse, -, hd⟩ := digits_reverse 128 hsmall
    rw [hreverse] at hdigits hvalue
    have hbehind : behind (128 * 0 + d) ds = n / 128 := hvalue
    rw [arcBytes, hreverse, List.map_cons, List.append_assoc, List.cons_append,
      subidentifiers_marked (hdigits d List.mem_cons_self) none (.inr hd), Option.getD_none,
      subidentifiers_behind (fun x hx => hdigits x (List.mem_cons_of_mem d hx)), hbehind,
      List.singleton_append, hlast, Option.getD_some, Nat.div_add_mod]

lemma subidentifiers_arcs (arcs : List ℕ) :
    subidentifiers none (arcs.flatMap arcBytes) = some arcs := by
  induction arcs with
  | nil => rfl
  | cons n arcs ih =>
      rw [List.flatMap_cons, subidentifiers_arc, ih]
      rfl

/-! ### Elements -/

section Elements

variable {tag : UInt8} {value bytes rest : Bytes}

lemma readElement_of_readLength (htag : tag.toNat % 32 ≠ 31)
    (h : readLength bytes = some (value.length, value ++ rest)) :
    readElement (tag :: bytes) = some ((tag, value), rest) := by
  have hlength : ¬ (value ++ rest).length < value.length := by
    rw [List.length_append]
    omega
  rw [readElement, if_neg htag, h, Option.bind_some]
  simp only
  rw [if_neg hlength, List.take_left, List.drop_left]

/-- What is read element by element is read as a whole. -/
lemma elements_flatMap {ι : Type*} (write : ι → Bytes) (element : ι → UInt8 × Bytes) (xs : List ι)
    (h : ∀ x ∈ xs, ∀ rest, readElement (write x ++ rest) = some (element x, rest)) :
    elements (xs.flatMap write) = some (xs.map element) := by
  have hne : ∀ x ∈ xs, write x ≠ [] := by
    intro x hx hnil
    have hread := h x hx []
    rw [hnil] at hread
    cases hread
  have hfuel : ∀ fuel, (xs.flatMap write).length ≤ fuel →
      readElements fuel (xs.flatMap write) = some (xs.map element) := by
    intro fuel
    induction xs generalizing fuel with
    | nil => cases fuel <;> exact fun _ => rfl
    | cons x xs ih =>
        intro hfuel
        have hread := h x List.mem_cons_self (xs.flatMap write)
        have hpos := List.length_pos_iff.mpr (hne x List.mem_cons_self)
        rw [List.flatMap_cons, List.length_append] at hfuel
        cases fuel with
        | zero => omega
        | succ fuel =>
            have hrest := ih (fun y hy => h y (List.mem_cons_of_mem x hy))
              (fun y hy => hne y (List.mem_cons_of_mem x hy)) fuel (by omega)
            rw [List.flatMap_cons]
            cases hwrite : write x ++ xs.flatMap write with
            | nil =>
                exact absurd (List.append_eq_nil_iff.mp hwrite).1 (hne x List.mem_cons_self)
            | cons b bytes =>
                rw [readElements, ← hwrite, hread, Option.bind_some]
                simp only [hrest, Option.map_some, List.map_cons]
  exact hfuel _ le_rfl

lemma readWhole_of_readElement (h : readElement bytes = some ((tag, value), [])) :
    readWhole tag bytes = some value := by
  rw [readWhole, h, Option.bind_some]
  exact if_pos ⟨rfl, rfl⟩

end Elements

/-! ### Integers -/

/-- The bytes of a number with the byte that keeps them from being taken for a negative one. -/
def signPadded (bytes : Bytes) : Bytes :=
  if bytes.head?.any (128 ≤ ·) then 0 :: bytes else bytes

lemma natural_zero_cons (bytes : Bytes) : natural (0 :: bytes) = natural bytes := by
  rw [natural, natural, List.reverse_cons, List.map_append, Nat.ofDigits_append]
  simp

/-- **A number without leading zeros** reads as itself once it is padded. -/
lemma readInteger_signPadded {b : UInt8} {bytes : Bytes} (h : b = 0 → bytes = []) :
    readInteger (signPadded (b :: bytes)) = some (natural (b :: bytes) : ℤ) := by
  rw [signPadded, List.head?_cons, Option.any_some]
  split_ifs with hhigh
  · have hb : ¬ b < 128 := UInt8.not_lt.mpr (of_decide_eq_true hhigh)
    have hminimal : ¬ (((0 : UInt8) = 0 ∧ (b :: bytes).head?.any (· < 128) = true) ∨
        ((0 : UInt8) = 255 ∧ (b :: bytes).head?.any (128 ≤ ·) = true)) := by
      rintro (⟨-, hlow⟩ | ⟨hzero, -⟩)
      · exact hb (of_decide_eq_true hlow)
      · cases hzero
    rw [readInteger, if_neg hminimal, if_pos (by decide), natural_zero_cons]
  · have hb : b < 128 := UInt8.not_le.mp fun hle => hhigh (decide_eq_true hle)
    have hminimal : ¬ ((b = 0 ∧ bytes.head?.any (· < 128) = true) ∨
        (b = 255 ∧ bytes.head?.any (128 ≤ ·) = true)) := by
      rintro (⟨hzero, hlow⟩ | ⟨rfl, -⟩)
      · rw [h hzero] at hlow
        cases hlow
      · exact absurd hb (by decide)
    rw [readInteger, if_neg hminimal, if_pos hb]

/-! ### Bits -/

/-- Bits that may be left out at the end: fewer than a byte, all of them zero, and none of
nothing. -/
structure Unused (unused : ℕ) (bytes : Bytes) : Prop where
  le_seven : unused ≤ 7
  of_nil : bytes = [] → unused = 0
  zero : ∀ b ∈ bytes.getLast?, b.toNat % 2 ^ unused = 0

lemma readBits_of_unused {unused : ℕ} {bytes : Bytes} (h : Unused unused bytes) :
    readBits (unused.toUInt8 :: bytes) = some (unused, bytes) := by
  have hnat : unused.toUInt8.toNat = unused := toNat_toUInt8 (by have := h.le_seven; omega)
  have hvalid : ¬ (7 < unused.toUInt8 ∨ (bytes = [] ∧ unused.toUInt8 ≠ 0) ∨
      bytes.getLast?.any (fun b => b.toNat % 2 ^ unused.toUInt8.toNat ≠ 0) = true) := by
    rw [hnat]
    rintro (hlarge | ⟨hnil, hne⟩ | hlast)
    · rw [UInt8.lt_iff_toNat_lt, hnat] at hlarge
      exact absurd h.le_seven (not_le.mpr hlarge)
    · rw [h.of_nil hnil] at hne
      exact hne rfl
    · cases hb : bytes.getLast? with
      | none =>
          rw [hb] at hlast
          cases hlast
      | some b =>
          rw [hb, Option.any_some, decide_eq_true_eq] at hlast
          exact hlast (h.zero b hb)
  rw [readBits, if_neg hvalid, hnat]

/-- Whole bytes leave no bits out. -/
lemma unused_zero (bytes : Bytes) : Unused 0 bytes where
  le_seven := Nat.zero_le 7
  of_nil _ := rfl
  zero b _ := Nat.mod_one b.toNat

end Asn1
