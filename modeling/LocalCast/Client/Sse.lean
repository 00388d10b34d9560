import LocalCast.Foundations.JsNumber

/-!
`SseDecoder` of `client-core`: the incremental decoder of an event stream.

* `splitLines`: the complete lines of a buffer and the fragment behind them.
* `SseDecoder.push`: a chunk of text, and the frames that completed inside it.
* `push_append`: how a text without carriage returns is cut into chunks does not matter.
* `Carries`: the frames a decoder will make of the text still to come. `Carries.read` and
  `Carries.append` are what reading from and writing to a connection keep of it.
-/

namespace LocalCast.Client

open JsString JsNumber

structure SseFrame where
  id : Option JsString
  event : Option JsString
  data : JsString
deriving DecidableEq

structure SseDecoder where
  buffer : JsString
  data : List JsString
  event : Option JsString
  lastId : Option JsString
  retryMs : Option ℕ
deriving DecidableEq

/-! ### Lines -/

/-- A line end before what is already split. -/
def endLine (split : List JsString × JsString) : List JsString × JsString :=
  ([] :: split.1, split.2)

/-- A unit before what is already split. -/
def addUnit (c : CodeUnit) : List JsString × JsString → List JsString × JsString
  | ([], rest) => ([], c :: rest)
  | (line :: lines, rest) => ((c :: line) :: lines, rest)

/-- The lines of a buffer that are ended, by LF, CR or CRLF, and the fragment behind them. -/
def splitLines : JsString → List JsString × JsString
  | [] => ([], [])
  | [c] => if c = 10 ∨ c = 13 then endLine ([], []) else addUnit c ([], [])
  | c :: d :: rest =>
      if c = 13 ∧ d = 10 then endLine (splitLines rest)
      else if c = 10 ∨ c = 13 then endLine (splitLines (d :: rest))
      else addUnit c (splitLines (d :: rest))

lemma splitLines_cons {c : CodeUnit} (hc : c ≠ 13) (s : JsString) :
    splitLines (c :: s) = if c = 10 then endLine (splitLines s) else addUnit c (splitLines s) := by
  cases s <;> simp [splitLines, hc]

/-- A line end after the first line. -/
lemma splitLines_line {line : JsString} (hline : ∀ c ∈ line, c ≠ 10 ∧ c ≠ 13) (rest : JsString) :
    splitLines (line ++ 10 :: rest) = (line :: (splitLines rest).1, (splitLines rest).2) := by
  induction line with
  | nil =>
      rw [List.nil_append, splitLines_cons (by decide), if_pos rfl]
      rfl
  | cons c line ih =>
      obtain ⟨hlf, hcr⟩ := hline c List.mem_cons_self
      rw [List.cons_append, splitLines_cons hcr, if_neg hlf,
        ih fun d hd => hline d (List.mem_cons_of_mem _ hd)]
      rfl

/-- Splitting a text that goes on is splitting what its first part left over, and the rest. -/
lemma splitLines_append {a : JsString} (ha : 13 ∉ a) (b : JsString) :
    splitLines (a ++ b) = ((splitLines a).1 ++ (splitLines ((splitLines a).2 ++ b)).1,
      (splitLines ((splitLines a).2 ++ b)).2) := by
  induction a with
  | nil => rfl
  | cons c a ih =>
      have hc : c ≠ 13 := fun h => ha (h ▸ List.mem_cons_self)
      have ih := ih fun h => ha (List.mem_cons_of_mem _ h)
      rw [List.cons_append, splitLines_cons hc, splitLines_cons hc, ih]
      split_ifs with hlf
      · rfl
      · -- the unit goes to the first line, which may not be ended yet
        cases hsplit : splitLines a with
        | mk lines rest =>
            cases lines with
            | nil =>
                simp only [addUnit, List.nil_append, List.cons_append, splitLines_cons hc, if_neg hlf]
            | cons line lines => rfl

/-- The fragment holds no line end. -/
lemma splitLines_fragment (s : JsString) : ∀ c ∈ (splitLines s).2, c ≠ 10 ∧ c ≠ 13 := by
  have hadd {c : CodeUnit} {split : List JsString × JsString} (hc : ¬ (c = 10 ∨ c = 13))
      (h : ∀ d ∈ split.2, d ≠ 10 ∧ d ≠ 13) : ∀ d ∈ (addUnit c split).2, d ≠ 10 ∧ d ≠ 13 := by
    obtain ⟨lines, rest⟩ := split
    cases lines with
    | nil => exact List.forall_mem_cons.mpr ⟨not_or.mp hc, h⟩
    | cons line lines => exact h
  induction s using splitLines.induct with
  | case1 => simp [splitLines]
  | case2 c hc =>
      rw [splitLines, if_pos hc]
      simp [endLine]
  | case3 c hc =>
      rw [splitLines, if_neg hc]
      exact hadd hc (by simp)
  | case4 c d rest hc ih =>
      rw [splitLines, if_pos hc]
      exact ih
  | case5 c d rest hcr hc ih =>
      rw [splitLines, if_neg hcr, if_pos hc]
      exact ih
  | case6 c d rest hcr hc ih =>
      rw [splitLines, if_neg hcr, if_neg hc]
      exact hadd hc ih

/-- A text without a line end is a fragment. -/
lemma splitLines_of_fragment {s : JsString} (hs : ∀ c ∈ s, c ≠ 10 ∧ c ≠ 13) :
    splitLines s = ([], s) := by
  induction s with
  | nil => rfl
  | cons c s ih =>
      obtain ⟨⟨hlf, hcr⟩, hs⟩ := List.forall_mem_cons.mp hs
      rw [splitLines_cons hcr, if_neg hlf, ih hs]
      rfl

/-! ### The decoder -/

namespace SseDecoder

def init : SseDecoder := ⟨[], [], none, none, none⟩

/-- `#dispatch`. -/
def dispatch (d : SseDecoder) : SseDecoder × Option SseFrame :=
  if d.data = [] then ({ d with event := none }, none)
  else ({ d with data := [], event := none }, some ⟨d.lastId, d.event, join [10] d.data⟩)

/-- The switch of `#line` over the fields. -/
def setField (d : SseDecoder) (field value : JsString) : SseDecoder :=
  if field = js "data" then { d with data := d.data ++ [value] }
  else if field = js "event" then { d with event := some value }
  else if field = js "id" then if value.contains 0 then d else { d with lastId := some value }
  else if field = js "retry" then match natural value with
    | some ms => { d with retryMs := some ms }
    | none => d
  else d

/-- `#line`; a line without a colon is a field without a value. -/
def line (d : SseDecoder) (line : JsString) : SseDecoder × Option SseFrame :=
  if line = [] then d.dispatch
  else if line.head? = some 58 then (d, none)
  else
    let field := line.takeWhile (· ≠ 58)
    let value := (line.dropWhile (· ≠ 58)).tail
    (d.setField field (if value.head? = some 32 then value.tail else value), none)

/-- The loop of `push` over the lines. -/
def lines (d : SseDecoder) : List JsString → SseDecoder × List SseFrame
  | [] => (d, [])
  | l :: ls =>
      let (d', frame) := d.line l
      let (d'', frames) := d'.lines ls
      (d'', frame.toList ++ frames)

/-- `push`. -/
def push (d : SseDecoder) (chunk : JsString) : SseDecoder × List SseFrame :=
  let (ls, rest) := splitLines (d.buffer ++ chunk)
  let (d', frames) := d.lines ls
  ({ d' with buffer := rest }, frames)

lemma line_nil (d : SseDecoder) : d.line [] = d.dispatch := if_pos rfl

lemma line_field {name : JsString} (hname : ∀ c ∈ name, c ≠ 58) (hne : name ≠ []) (d : SseDecoder)
    (value : JsString) : d.line (name ++ 58 :: 32 :: value) = (d.setField name value, none) := by
  have hall : ∀ c ∈ name, decide (c ≠ 58) = true := fun c hc => by simpa using hname c hc
  have hhead : (name ++ 58 :: 32 :: value).head? ≠ some 58 := by
    cases name with
    | nil => exact absurd rfl hne
    | cons c name => simpa using hname c List.mem_cons_self
  rw [line, if_neg (by simp), if_neg hhead, List.takeWhile_append_of_pos hall,
    List.dropWhile_append_of_pos hall]
  simp

lemma setField_data (d : SseDecoder) (value : JsString) :
    d.setField (js "data") value = { d with data := d.data ++ [value] } := if_pos rfl

lemma setField_event (d : SseDecoder) (value : JsString) :
    d.setField (js "event") value = { d with event := some value } := by
  rw [setField, if_neg (by decide), if_pos rfl]

lemma setField_id {value : JsString} (hvalue : 0 ∉ value) (d : SseDecoder) :
    d.setField (js "id") value = { d with lastId := some value } := by
  rw [setField, if_neg (by decide), if_neg (by decide), if_pos rfl, if_neg (by simpa using hvalue)]

/-- The fields are set whatever is in the buffer. -/
lemma line_buffer (d : SseDecoder) (buffer l : JsString) :
    ({ d with buffer := buffer } : SseDecoder).line l =
      ({ (d.line l).1 with buffer := buffer }, (d.line l).2) := by
  have hset (field value : JsString) :
      ({ d with buffer := buffer } : SseDecoder).setField field value =
        { d.setField field value with buffer := buffer } := by
    unfold setField
    split_ifs <;> first | rfl | (cases natural value <;> rfl)
  unfold line dispatch
  split_ifs <;> simp [hset]

lemma lines_buffer (d : SseDecoder) (buffer : JsString) (ls : List JsString) :
    ({ d with buffer := buffer } : SseDecoder).lines ls =
      ({ (d.lines ls).1 with buffer := buffer }, (d.lines ls).2) := by
  induction ls generalizing d with
  | nil => rfl
  | cons l ls ih =>
      have hrest := ih (d.line l).1
      simp only [lines, line_buffer, hrest]

lemma lines_append (d : SseDecoder) (ls ls' : List JsString) :
    d.lines (ls ++ ls') =
      (((d.lines ls).1.lines ls').1, (d.lines ls).2 ++ ((d.lines ls).1.lines ls').2) := by
  induction ls generalizing d with
  | nil => rfl
  | cons l ls ih => simp only [List.cons_append, lines, ih, List.append_assoc]

/-- How a text without carriage returns is cut into chunks does not matter. -/
theorem push_append {d : SseDecoder} {a : JsString} (h : 13 ∉ d.buffer ++ a) (b : JsString) :
    d.push (a ++ b) = (((d.push a).1.push b).1, (d.push a).2 ++ ((d.push a).1.push b).2) := by
  simp only [push, ← List.append_assoc, splitLines_append h, lines_append, lines_buffer]

/-- Behind a chunk the buffer holds a fragment. -/
lemma buffer_push (d : SseDecoder) (chunk : JsString) :
    ∀ c ∈ (d.push chunk).1.buffer, c ≠ 10 ∧ c ≠ 13 := splitLines_fragment _

/-! ### Text still to come -/

/-- Between two events: no line begun and no field kept. -/
def Idle (d : SseDecoder) : Prop := d.buffer = [] ∧ d.data = [] ∧ d.event = none

/-- The text still to come completes the frames, and leaves the decoder between two events. -/
structure Carries (d : SseDecoder) (text : JsString) (frames : List SseFrame) : Prop where
  begun : ∀ c ∈ d.buffer, c ≠ 10 ∧ c ≠ 13
  plain : 13 ∉ text
  decoded : (d.push text).2 = frames
  idle : (d.push text).1.Idle

lemma Carries.unread {d : SseDecoder} {text : JsString} {frames : List SseFrame}
    (h : Carries d text frames) : 13 ∉ d.buffer ++ text := by
  rw [List.mem_append]
  exact not_or.mpr ⟨fun hc => (h.begun _ hc).2 rfl, h.plain⟩

/-- Nothing more completes nothing. -/
lemma Carries.eq_nil {d : SseDecoder} {frames : List SseFrame} (h : Carries d [] frames) :
    frames = [] := by
  rw [← h.decoded, push, List.append_nil, splitLines_of_fragment h.begun]
  rfl

/-- Reading the first part of the text completes the first of the frames. -/
lemma Carries.read {d : SseDecoder} {a b : JsString} {frames : List SseFrame}
    (h : Carries d (a ++ b) frames) : ∃ rest, frames = (d.push a).2 ++ rest ∧
      Carries (d.push a).1 b rest := by
  have hplain := h.unread
  rw [← List.append_assoc, List.mem_append, not_or] at hplain
  have hpush := push_append hplain.1 b
  refine ⟨((d.push a).1.push b).2, ?_, buffer_push d a, hplain.2, rfl, ?_⟩
  · rw [← h.decoded, hpush]
  · have hidle := h.idle
    rwa [hpush] at hidle

/-- Text written behind it adds the frames it holds for a decoder between two events. -/
lemma Carries.append {d : SseDecoder} {text more : JsString} {frames frames' : List SseFrame}
    (h : Carries d text frames) (hmore : ∀ d' : SseDecoder, d'.Idle → Carries d' more frames') :
    Carries d (text ++ more) (frames ++ frames') := by
  have hnext := hmore _ h.idle
  have hpush := push_append h.unread more
  refine ⟨h.begun, ?_, ?_, ?_⟩
  · rw [List.mem_append]
    exact not_or.mpr ⟨h.plain, hnext.plain⟩
  · rw [hpush, h.decoded, hnext.decoded]
  · rw [hpush]
    exact hnext.idle

end SseDecoder

end LocalCast.Client
