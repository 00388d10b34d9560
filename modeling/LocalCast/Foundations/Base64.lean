import LocalCast.Foundations.Utf8

/-!
base64 with the standard alphabet and padding.

* `sextets`: the digits of bytes, six bits each; `base64Bytes` of the module below reads them.
  `base64Bytes_sextets` is the round trip.
* `sextets_base64Bytes_iff`: the digits that are those of the bytes they are read as: the bits that
  are left of the last one are zero.
* `base64`: the text, four characters for every three bytes.
-/

namespace JsString

/-! ### Digits -/

/-- The digits of bytes; the last one is filled up with zeros. -/
def sextets : List ℕ → List ℕ
  | [] => []
  | [a] => [a / 4, a % 4 * 16]
  | [a, b] => [a / 4, a % 4 * 16 + b / 16, b % 16 * 4]
  | a :: b :: c :: rest =>
      (a / 4) :: (a % 4 * 16 + b / 16) :: (b % 16 * 4 + c / 64) :: (c % 64) :: sextets rest

lemma lt_of_mem_sextets {bytes : List ℕ} (h : ∀ b ∈ bytes, b < 256) :
    ∀ d ∈ sextets bytes, d < 64 := by
  induction bytes using sextets.induct with
  | case1 => exact fun d hd => absurd hd List.not_mem_nil
  | case2 a =>
      have ha := h a (by simp)
      simp only [sextets, List.forall_mem_cons]
      exact ⟨by omega, by omega, by simp⟩
  | case3 a b =>
      have ha := h a (by simp)
      have hb := h b (by simp)
      simp only [sextets, List.forall_mem_cons]
      exact ⟨by omega, by omega, by omega, by simp⟩
  | case4 a b c rest ih =>
      have ha := h a (by simp)
      have hb := h b (by simp)
      have hc := h c (by simp)
      simp only [sextets, List.forall_mem_cons]
      exact ⟨by omega, by omega, by omega, by omega, ih fun x hx => h x (by simp [hx])⟩

/-- Two bytes after a number of groups take three digits. -/
lemma length_sextets {bytes : List ℕ} (h : bytes.length % 3 = 2) :
    3 * (sextets bytes).length = 4 * bytes.length + 1 := by
  induction bytes using sextets.induct with
  | case1 => simp at h
  | case2 a => simp at h
  | case3 a b => rfl
  | case4 a b c rest ih =>
      simp only [List.length_cons] at h
      have ih := ih (by omega)
      simp only [sextets, List.length_cons]
      omega

/-- Bytes come back from their digits. -/
theorem base64Bytes_sextets {bytes : List ℕ} (h : ∀ b ∈ bytes, b < 256) :
    base64Bytes (sextets bytes) = bytes := by
  induction bytes using sextets.induct with
  | case1 => rfl
  | case2 a =>
      have hback : a / 4 * 4 + a % 4 * 16 / 16 = a := by omega
      rw [sextets, base64Bytes, hback]
  | case3 a b =>
      have hb := h b (by simp)
      have h1 : a / 4 * 4 + (a % 4 * 16 + b / 16) / 16 = a := by omega
      have h2 : (a % 4 * 16 + b / 16) % 16 * 16 + b % 16 * 4 / 4 = b := by omega
      rw [sextets, base64Bytes, h1, h2]
  | case4 a b c rest ih =>
      have hb := h b (by simp)
      have hc := h c (by simp)
      have h1 : a / 4 * 4 + (a % 4 * 16 + b / 16) / 16 = a := by omega
      have h2 : (a % 4 * 16 + b / 16) % 16 * 16 + (b % 16 * 4 + c / 64) / 4 = b := by omega
      have h3 : (b % 16 * 4 + c / 64) % 4 * 64 + c % 64 = c := by omega
      rw [sextets, base64Bytes, h1, h2, h3, ih fun x hx => h x (by simp [hx])]

lemma lt_of_mem_base64Bytes {ds : List ℕ} (h : ∀ d ∈ ds, d < 64) :
    ∀ b ∈ base64Bytes ds, b < 256 := by
  induction ds using base64Bytes.induct with
  | case1 => exact fun b hb => absurd hb List.not_mem_nil
  | case2 w => exact fun b hb => absurd hb List.not_mem_nil
  | case3 w x =>
      have hw := h w (by simp)
      have hx := h x (by simp)
      simp only [base64Bytes, List.forall_mem_cons]
      exact ⟨by omega, by simp⟩
  | case4 w x y =>
      have hw := h w (by simp)
      have hx := h x (by simp)
      have hy := h y (by simp)
      simp only [base64Bytes, List.forall_mem_cons]
      exact ⟨by omega, by omega, by simp⟩
  | case5 w x y z rest ih =>
      have hw := h w (by simp)
      have hx := h x (by simp)
      have hy := h y (by simp)
      have hz := h z (by simp)
      simp only [base64Bytes, List.forall_mem_cons]
      exact ⟨by omega, by omega, by omega, ih fun d hd => h d (by simp [hd])⟩

/-- Three digits after a number of groups hold two bytes. -/
lemma length_base64Bytes {ds : List ℕ} (h : ds.length % 4 = 3) :
    4 * (base64Bytes ds).length + 1 = 3 * ds.length := by
  induction ds using base64Bytes.induct with
  | case1 => simp at h
  | case2 w => simp at h
  | case3 w x => simp at h
  | case4 w x y => rfl
  | case5 w x y z rest ih =>
      simp only [List.length_cons] at h
      have ih := ih (by omega)
      simp only [base64Bytes, List.length_cons]
      omega

/-- Digits are those of their bytes when nothing is left of the last one. -/
theorem sextets_base64Bytes_iff {ds : List ℕ} (h : ∀ d ∈ ds, d < 64) (hlength : ds.length % 4 = 3) :
    sextets (base64Bytes ds) = ds ↔ ∀ d ∈ ds.getLast?, d % 4 = 0 := by
  induction ds using base64Bytes.induct with
  | case1 => simp at hlength
  | case2 w => simp at hlength
  | case3 w x => simp at hlength
  | case4 w x y =>
      have hx := h x (by simp)
      have hy := h y (by simp)
      have h1 : (w * 4 + x / 16) / 4 = w := by omega
      have h2 : (w * 4 + x / 16) % 4 * 16 + (x % 16 * 16 + y / 4) / 16 = x := by omega
      have h3 : (x % 16 * 16 + y / 4) % 16 * 4 = y ↔ y % 4 = 0 := by omega
      rw [base64Bytes, sextets, h1, h2]
      simpa using h3
  | case5 w x y z rest ih =>
      have hx := h x (by simp)
      have hy := h y (by simp)
      have hz := h z (by simp)
      simp only [List.length_cons] at hlength
      have ih := ih (fun d hd => h d (by simp [hd])) (by omega)
      have h1 : (w * 4 + x / 16) / 4 = w := by omega
      have h2 : (w * 4 + x / 16) % 4 * 16 + (x % 16 * 16 + y / 4) / 16 = x := by omega
      have h3 : (x % 16 * 16 + y / 4) % 16 * 4 + (y % 4 * 64 + z) / 64 = y := by omega
      have h4 : (y % 4 * 64 + z) % 64 = z := by omega
      have hlast : (w :: x :: y :: z :: rest).getLast? = rest.getLast? := by
        cases rest with
        | nil => simp at hlength
        | cons d rest => rfl
      rw [base64Bytes, sextets, h1, h2, h3, h4, hlast]
      simpa using ih

/-! ### Text -/

/-- The letters of base64. -/
def base64Alphabet : JsString :=
  js "ABCDEFGHIJKLMNOPQRSTUVWXYZabcdefghijklmnopqrstuvwxyz0123456789+/"

def base64Letter (v : ℕ) : CodeUnit := base64Alphabet.getD v 0

/-- `buffer.toString('base64')`. -/
def base64 (bytes : List ℕ) : JsString :=
  (sextets bytes).map base64Letter ++ List.replicate ((3 - bytes.length % 3) % 3) 61

lemma idxOf_base64Letter {v : ℕ} (h : v < 64) : base64Alphabet.idxOf (base64Letter v) = v := by
  have hall : ((List.range 64).all fun v => base64Alphabet.idxOf (base64Letter v) == v) = true := by
    decide +kernel
  simpa using List.all_eq_true.mp hall v (List.mem_range.mpr h)

lemma base64Letter_mem {v : ℕ} (h : v < 64) : base64Letter v ∈ base64Alphabet := by
  rw [← List.idxOf_lt_length_iff, idxOf_base64Letter h]
  exact h

lemma base64Letter_idxOf {c : CodeUnit} (h : c ∈ base64Alphabet) :
    base64Letter (base64Alphabet.idxOf c) = c := by
  have hlt := List.idxOf_lt_length_of_mem h
  rw [base64Letter, List.getD_eq_getElem?_getD, List.getElem?_eq_getElem hlt,
    List.getElem_idxOf hlt, Option.getD_some]

end JsString
