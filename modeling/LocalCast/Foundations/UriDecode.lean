import LocalCast.Foundations.JsString

/-!
`decodeURIComponent` of ECMAScript: percent escapes are read as UTF-8, and a malformed
escape or an ill-formed sequence makes the whole decoding fail (`none`, where the
language throws a `URIError`).
-/

namespace JsString

/-- The value of a hexadecimal digit. -/
def hexVal (c : CodeUnit) : Option ℕ :=
  if 48 ≤ c ∧ c ≤ 57 then some (c.toNat - 48)
  else if 65 ≤ c ∧ c ≤ 70 then some (c.toNat - 55)
  else if 97 ≤ c ∧ c ≤ 102 then some (c.toNat - 87)
  else none

/-- One escape `%HH` at the head of the string, with what follows it. -/
def takeEscape : JsString → Option (ℕ × JsString)
  | 37 :: a :: b :: rest => do
      let x ← hexVal a
      let y ← hexVal b
      some (16 * x + y, rest)
  | _ => none

/-- `n` escapes in a row, each a continuation byte, folded into the bits read so far. -/
def takeContinuation : ℕ → ℕ → JsString → Option (ℕ × JsString)
  | 0, v, s => some (v, s)
  | n + 1, v, s => do
      let (b, rest) ← takeEscape s
      if 0x80 ≤ b ∧ b < 0xC0 then takeContinuation n (64 * v + (b - 0x80)) rest else none

/-- A code point as UTF-16. -/
def encodePoint (v : ℕ) : JsString :=
  if v < 0x10000 then [v.toUInt16]
  else [(0xD800 + (v - 0x10000) / 0x400).toUInt16, (0xDC00 + (v - 0x10000) % 0x400).toUInt16]

/-- The code point that an escaped lead byte starts, well-formed UTF-8 only: no overlong
form, no surrogate, nothing above `U+10FFFF`. -/
def takePoint (s : JsString) : Option (ℕ × JsString) := do
  let (b, rest) ← takeEscape s
  if b < 0x80 then some (b, rest)
  else if 0xC2 ≤ b ∧ b < 0xE0 then takeContinuation 1 (b - 0xC0) rest
  else if 0xE0 ≤ b ∧ b < 0xF0 then do
    let (v, rest') ← takeContinuation 2 (b - 0xE0) rest
    if 0x800 ≤ v ∧ ¬ (0xD800 ≤ v ∧ v < 0xE000) then some (v, rest') else none
  else if 0xF0 ≤ b ∧ b < 0xF5 then do
    let (v, rest') ← takeContinuation 3 (b - 0xF0) rest
    if 0x10000 ≤ v ∧ v < 0x110000 then some (v, rest') else none
  else none

/-- The loop of the decoder; every turn consumes at least one unit, so the length of the
string is fuel enough. -/
def decodeLoop : ℕ → JsString → Option JsString
  | _, [] => some []
  | 0, _ :: _ => none
  | fuel + 1, c :: cs =>
      if c = 37 then do
        let (v, rest) ← takePoint (c :: cs)
        let tail ← decodeLoop fuel rest
        some (encodePoint v ++ tail)
      else do
        let tail ← decodeLoop fuel cs
        some (c :: tail)

/-- `decodeURIComponent`. -/
def decodeURIComponent (s : JsString) : Option JsString := decodeLoop s.length s

/-- A string without `%` decodes to itself. -/
lemma decodeURIComponent_of_no_percent {s : JsString} (h : (37 : CodeUnit) ∉ s) :
    decodeURIComponent s = some s := by
  rw [decodeURIComponent]
  induction s with
  | nil => rfl
  | cons c cs ih =>
      rw [List.mem_cons, not_or] at h
      simp [decodeLoop, Ne.symm h.1, ih h.2]

example : decodeURIComponent (js "a%2e%2E%C3%A9") = some (js "a..é") := by decide
example : decodeURIComponent (js "%zz") = none := by decide

end JsString
