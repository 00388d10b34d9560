import LocalCast.Client.Sse

/-!
Chunks of an event stream: what `SseDecoder` makes of a text that comes in chunks, beside what
it makes of the same text at once.

* `marks`, `markedLines`: the lines of a text, where those are marked whose CR and LF came in two
  chunks. `pushAll_marks`: behind such a line the decoder reads an empty one.
* `fieldOf`, `dataOf`, `eventOf`, `idOf`: what the lines of an event say. `lines_event` and
  `lines_ended` read a decoder between two events by them.
* `events`, `pieces`: the lines up to an empty one, and the parts into which the marked line ends
  cut them.
* `KeepsFrames`: the cuts change no frame. `pushAll_iff`: these are the texts and chunks for
  which chunking does not matter.
-/

namespace LocalCast.Client

open JsString JsNumber

namespace SseDecoder

/-- `push` of one chunk after the other. -/
def pushAll (d : SseDecoder) : List JsString → SseDecoder × List SseFrame
  | [] => (d, [])
  | chunk :: chunks =>
      let (d', frames) := d.push chunk
      let (d'', frames') := d'.pushAll chunks
      (d'', frames ++ frames')

end SseDecoder

/-! ### Where the chunks end -/

/-- A line of the stream; it is cut if its CR ended one chunk and its LF began the next. -/
structure StreamLine where
  text : JsString
  cut : Bool
deriving DecidableEq

/-- The units of a chunk, the last of them marked. -/
def chunkMarks : JsString → List (CodeUnit × Bool)
  | [] => []
  | [c] => [(c, true)]
  | c :: d :: rest => (c, false) :: chunkMarks (d :: rest)

def marks (chunks : List JsString) : List (CodeUnit × Bool) := chunks.flatMap chunkMarks

/-- A unit before what is already split. -/
def markUnit (c : CodeUnit) : List StreamLine × JsString → List StreamLine × JsString
  | ([], rest) => ([], c :: rest)
  | (line :: lines, rest) => ({ line with text := c :: line.text } :: lines, rest)

/-- A line end before what is already split. -/
def markLine (cut : Bool) (split : List StreamLine × JsString) : List StreamLine × JsString :=
  (⟨[], cut⟩ :: split.1, split.2)

/-- `splitLines` of a text with marks. -/
def markedLines : List (CodeUnit × Bool) → List StreamLine × JsString
  | [] => ([], [])
  | [(c, _)] => if c = 10 ∨ c = 13 then markLine false ([], []) else markUnit c ([], [])
  | (c, last) :: (d, last') :: rest =>
      if c = 13 ∧ d = 10 then markLine last (markedLines rest)
      else if c = 10 ∨ c = 13 then markLine false (markedLines ((d, last') :: rest))
      else markUnit c (markedLines ((d, last') :: rest))

/-- The lines as the decoder reads them that is fed in chunks. -/
def StreamLine.read (line : StreamLine) : List JsString :=
  if line.cut then [line.text, []] else [line.text]

lemma map_fst_chunkMarks (chunk : JsString) : (chunkMarks chunk).map Prod.fst = chunk := by
  induction chunk using chunkMarks.induct with
  | case1 => rfl
  | case2 c => rfl
  | case3 c d rest ih => rw [chunkMarks, List.map_cons, ih]

lemma map_fst_marks (chunks : List JsString) : (marks chunks).map Prod.fst = chunks.flatten := by
  induction chunks with
  | nil => rfl
  | cons chunk chunks ih =>
      rw [marks, List.flatMap_cons, List.map_append, map_fst_chunkMarks, List.flatten_cons]
      exact congrArg _ ih

/-- The marks do not change the lines. -/
lemma markedLines_text (w : List (CodeUnit × Bool)) :
    ((markedLines w).1.map StreamLine.text, (markedLines w).2) = splitLines (w.map Prod.fst) := by
  have hunit (c : CodeUnit) (split : List StreamLine × JsString) :
      ((markUnit c split).1.map StreamLine.text, (markUnit c split).2) =
        addUnit c (split.1.map StreamLine.text, split.2) := by
    obtain ⟨lines, rest⟩ := split
    cases lines <;> rfl
  induction w using markedLines.induct with
  | case1 => rfl
  | case2 c last h =>
      simp only [markedLines, splitLines, if_pos h, List.map_cons, List.map_nil]
      rfl
  | case3 c last h =>
      simp only [markedLines, splitLines, if_neg h, List.map_cons, List.map_nil]
      rfl
  | case4 c last d last' rest h ih =>
      simp only [markedLines, if_pos h, List.map_cons, splitLines, ← ih]
      rfl
  | case5 c last d last' rest h h' ih =>
      rw [List.map_cons] at ih
      simp only [markedLines, if_neg h, if_pos h', List.map_cons, splitLines, ← ih]
      rfl
  | case6 c last d last' rest h h' ih =>
      rw [List.map_cons] at ih
      simp only [markedLines, if_neg h, if_neg h', List.map_cons, splitLines, ← ih, hunit]

lemma markedLines_cons {c : CodeUnit} (hc : c ≠ 13) (last : Bool) (m : List (CodeUnit × Bool)) :
    markedLines ((c, last) :: m) =
      if c = 10 then markLine false (markedLines m) else markUnit c (markedLines m) := by
  cases m <;> simp [markedLines, hc]

/-! ### Fed in chunks -/

/-- The lines that are read, and the fragment behind them. -/
def readLines (split : List StreamLine × JsString) : List JsString × JsString :=
  (split.1.flatMap StreamLine.read, split.2)

lemma readLines_markUnit (c : CodeUnit) (split : List StreamLine × JsString) :
    readLines (markUnit c split) = addUnit c (readLines split) := by
  obtain ⟨lines, rest⟩ := split
  cases lines with
  | nil => rfl
  | cons line lines =>
      obtain ⟨text, cut⟩ := line
      cases cut <;> rfl

lemma readLines_markLine (split : List StreamLine × JsString) :
    readLines (markLine false split) = endLine (readLines split) := rfl

/-- A CR at the end of a chunk ends its line, whatever comes behind it. -/
lemma readLines_cr (m : List (CodeUnit × Bool)) :
    readLines (markedLines ((13, true) :: m)) = endLine (readLines (markedLines m)) := by
  cases m with
  | nil => rfl
  | cons mark rest =>
      obtain ⟨d, last⟩ := mark
      by_cases hd : d = 10
      · rw [markedLines, if_pos ⟨rfl, hd⟩, markedLines_cons (by simp [hd]), if_pos hd]
        rfl
      · rw [markedLines, if_neg fun h => hd h.2, if_pos (.inr rfl)]
        rfl

/-- A CR is marked where it is the last unit, and there only. -/
def EndsMarked : List (CodeUnit × Bool) → Prop
  | [] => True
  | [(c, last)] => c = 13 → last = true
  | (c, last) :: mark :: rest => (c = 13 → last = false) ∧ EndsMarked (mark :: rest)

lemma endsMarked_chunkMarks (chunk : JsString) : EndsMarked (chunkMarks chunk) := by
  induction chunk using chunkMarks.induct with
  | case1 => exact trivial
  | case2 c => exact fun _ => rfl
  | case3 c d rest ih =>
      cases hrest : chunkMarks (d :: rest) with
      | nil =>
          rw [chunkMarks, hrest]
          cases rest <;> simp [chunkMarks] at hrest
      | cons mark marks =>
          rw [chunkMarks, hrest]
          exact ⟨fun _ => rfl, hrest ▸ ih⟩

lemma endsMarked_append {w m : List (CodeUnit × Bool)} (hw : ∀ mark ∈ w, mark.1 ≠ 13)
    (hm : EndsMarked m) : EndsMarked (w ++ m) := by
  induction w with
  | nil => exact hm
  | cons mark w ih =>
      obtain ⟨hmark, htail⟩ := List.forall_mem_cons.mp hw
      obtain ⟨c, last⟩ := mark
      cases hrest : w ++ m with
      | nil =>
          rw [List.cons_append, hrest]
          exact fun hc => absurd hc hmark
      | cons mark' rest =>
          rw [List.cons_append, hrest]
          exact ⟨fun hc => absurd hc hmark, hrest ▸ ih htail⟩

/-- What is read of a text that goes on: the lines of the first chunk, and then those of what it
left over and the rest. -/
lemma readLines_append {w : List (CodeUnit × Bool)} (hw : EndsMarked w) :
    ∃ w', w'.map Prod.fst = (splitLines (w.map Prod.fst)).2 ∧
      ∀ m, readLines (markedLines (w ++ m)) =
        ((splitLines (w.map Prod.fst)).1 ++ (readLines (markedLines (w' ++ m))).1,
          (readLines (markedLines (w' ++ m))).2) := by
  induction w with
  | nil => exact ⟨[], rfl, fun m => rfl⟩
  | cons mark w ih =>
      obtain ⟨c, last⟩ := mark
      have htail : EndsMarked w := by
        cases w with
        | nil => exact trivial
        | cons mark' w => exact hw.2
      obtain ⟨w', hfragment, hread⟩ := ih htail
      by_cases hc : c = 13
      · subst hc
        cases w with
        | nil =>
            obtain rfl : last = true := hw rfl
            exact ⟨[], rfl, fun m => readLines_cr m⟩
        | cons mark w =>
            obtain ⟨d, last'⟩ := mark
            obtain rfl : last = false := hw.1 rfl
            by_cases hd : d = 10
            · -- the CR adds nothing to the LF behind it
              subst hd
              have hlf : (10 : CodeUnit) ≠ 13 := by decide
              have hlines : splitLines (((13, false) :: (10, last') :: w).map Prod.fst) =
                  splitLines (((10, last') :: w).map Prod.fst) := by
                simp [splitLines, splitLines_cons hlf]
              have hmarked (m : List (CodeUnit × Bool)) :
                  markedLines ((13, false) :: (10, last') :: w ++ m) =
                    markedLines ((10, last') :: w ++ m) := by
                simp [markedLines, markedLines_cons hlf]
              exact ⟨w', hlines ▸ hfragment, fun m => by rw [hmarked, hread m, hlines]⟩
            · have hlines : splitLines (((13, false) :: (d, last') :: w).map Prod.fst) =
                  endLine (splitLines (((d, last') :: w).map Prod.fst)) := by
                simp [splitLines, hd]
              have hmarked (m : List (CodeUnit × Bool)) :
                  markedLines ((13, false) :: (d, last') :: w ++ m) =
                    markLine false (markedLines ((d, last') :: w ++ m)) := by
                simp [markedLines, hd]
              refine ⟨w', hlines ▸ hfragment, fun m => ?_⟩
              rw [hmarked, readLines_markLine, hread m, hlines]
              rfl
      · by_cases hlf : c = 10
        · refine ⟨w', ?_, fun m => ?_⟩
          · rw [List.map_cons, splitLines_cons hc, if_pos hlf, hfragment]
            rfl
          · rw [List.cons_append, markedLines_cons hc, if_pos hlf, readLines_markLine, hread m,
              List.map_cons, splitLines_cons hc, if_pos hlf]
            rfl
        · -- the unit goes to the first line, which may not be ended yet
          cases hsplit : splitLines (w.map Prod.fst) with
          | mk lines rest =>
              rw [hsplit] at hfragment hread
              cases lines with
              | nil =>
                  refine ⟨(c, last) :: w', ?_, fun m => ?_⟩
                  · rw [List.map_cons, List.map_cons, splitLines_cons hc, if_neg hlf, hsplit,
                      hfragment]
                    rfl
                  · rw [List.cons_append, List.cons_append, markedLines_cons hc,
                      markedLines_cons hc, if_neg hlf, if_neg hlf, readLines_markUnit, hread m,
                      List.map_cons, splitLines_cons hc, if_neg hlf, hsplit, readLines_markUnit]
                    rfl
              | cons line lines =>
                  refine ⟨w', ?_, fun m => ?_⟩
                  · rw [List.map_cons, splitLines_cons hc, if_neg hlf, hsplit, hfragment]
                    rfl
                  · rw [List.cons_append, markedLines_cons hc, if_neg hlf, readLines_markUnit,
                      hread m, List.map_cons, splitLines_cons hc, if_neg hlf, hsplit]
                    rfl

namespace SseDecoder

/-- **The lines of a text that comes in chunks**: a line that is cut is read with an empty line
behind it. -/
theorem pushAll_marks {w : List (CodeUnit × Bool)} (hw : ∀ mark ∈ w, mark.1 ≠ 10 ∧ mark.1 ≠ 13)
    {d : SseDecoder} (hd : d.buffer = w.map Prod.fst) (chunks : List JsString) :
    d.pushAll chunks =
      let split := readLines (markedLines (w ++ marks chunks))
      ({ (d.lines split.1).1 with buffer := split.2 }, (d.lines split.1).2) := by
  induction chunks generalizing w d with
  | nil =>
      have hunits : ∀ c ∈ w.map Prod.fst, c ≠ 10 ∧ c ≠ 13 := List.forall_mem_map.mpr hw
      have htext := (markedLines_text w).trans (splitLines_of_fragment hunits)
      obtain ⟨hlines, hrest⟩ := Prod.mk.injEq .. ▸ htext
      rw [List.map_eq_nil_iff] at hlines
      rw [marks, List.flatMap_nil, List.append_nil, readLines, hlines, hrest, ← hd]
      rfl
  | cons chunk chunks ih =>
      have hends := endsMarked_append (fun mark hmark => (hw mark hmark).2)
        (endsMarked_chunkMarks chunk)
      obtain ⟨w', hfragment, hread⟩ := readLines_append hends
      rw [List.map_append, map_fst_chunkMarks, ← hd] at hfragment
      have hplain : ∀ mark ∈ w', mark.1 ≠ 10 ∧ mark.1 ≠ 13 :=
        List.forall_mem_map.mp (hfragment ▸ splitLines_fragment _)
      have hbuffer : (d.push chunk).1.buffer = w'.map Prod.fst := hfragment.symm
      have hnext := hread (marks chunks)
      rw [List.append_assoc, List.map_append, map_fst_chunkMarks, ← hd] at hnext
      rw [pushAll, marks, List.flatMap_cons]
      change _ = let split := readLines (markedLines (w ++ (chunkMarks chunk ++ marks chunks)))
        ({ (d.lines split.1).1 with buffer := split.2 }, (d.lines split.1).2)
      have hrest := ih hplain hbuffer
      simp only [push, lines_buffer] at hrest
      simp only [hnext, push, lines_append, hrest]

end SseDecoder

/-! ### What the lines of an event say -/

/-- The field of a line and its value; an empty line and a comment have none. -/
def fieldOf (l : JsString) : Option (JsString × JsString) :=
  if l = [] ∨ l.head? = some 58 then none
  else
    let value := (l.dropWhile (· ≠ 58)).tail
    some (l.takeWhile (· ≠ 58), if value.head? = some 32 then value.tail else value)

/-- The values of one field, in order. -/
def values (field : JsString) (ls : List JsString) : List JsString :=
  ((ls.filterMap fieldOf).filter fun f => f.1 = field).map Prod.snd

def dataOf (ls : List JsString) : List JsString := values (js "data") ls

def eventOf (ls : List JsString) : Option JsString := (values (js "event") ls).getLast?

/-- The id in force behind the lines; one with a NUL is ignored. -/
def idOf (id : Option JsString) (ls : List JsString) : Option JsString :=
  ((values (js "id") ls).filter fun v => !v.contains 0).getLast?.or id

def retryOf (retryMs : Option ℕ) (ls : List JsString) : Option ℕ :=
  ((values (js "retry") ls).filterMap natural).getLast?.or retryMs

lemma values_append (field : JsString) (ls ls' : List JsString) :
    values field (ls ++ ls') = values field ls ++ values field ls' := by
  simp [values]

lemma dataOf_append (ls ls' : List JsString) : dataOf (ls ++ ls') = dataOf ls ++ dataOf ls' :=
  values_append _ ls ls'

lemma retryOf_append (retryMs : Option ℕ) (ls ls' : List JsString) :
    retryOf retryMs (ls ++ ls') = retryOf (retryOf retryMs ls) ls' := by
  simp only [retryOf, values_append, List.filterMap_append, List.getLast?_append, Option.or_assoc]

lemma idOf_append (id : Option JsString) (ls ls' : List JsString) :
    idOf id (ls ++ ls') = idOf (idOf id ls) ls' := by
  simp only [idOf, values_append, List.filter_append, List.getLast?_append, Option.or_assoc]

namespace SseDecoder

/-- The decoder behind lines of which none is empty. -/
def absorb (d : SseDecoder) (ls : List JsString) : SseDecoder :=
  { d with
    data := d.data ++ dataOf ls
    event := (eventOf ls).or d.event
    lastId := idOf d.lastId ls
    retryMs := retryOf d.retryMs ls }

lemma absorb_append (d : SseDecoder) (ls ls' : List JsString) :
    d.absorb (ls ++ ls') = (d.absorb ls).absorb ls' := by
  simp only [absorb, dataOf_append, idOf_append, retryOf_append, eventOf, values_append,
    List.getLast?_append, Option.or_assoc, List.append_assoc]

lemma absorb_field (d : SseDecoder) {l field value : JsString}
    (h : fieldOf l = some (field, value)) : d.absorb [l] = d.setField field value := by
  have hvalues (name : JsString) : values name [l] = if field = name then [value] else [] := by
    by_cases hname : field = name <;> simp [values, h, hname]
  rw [absorb, dataOf, eventOf, idOf, retryOf, hvalues, hvalues, hvalues, hvalues, setField]
  by_cases hdata : field = js "data"
  · rw [if_pos hdata, if_neg (hdata ▸ by decide), if_neg (hdata ▸ by decide),
      if_neg (hdata ▸ by decide), if_pos hdata]
    rfl
  by_cases hevent : field = js "event"
  · rw [if_neg hdata, if_pos hevent, if_neg (hevent ▸ by decide), if_neg (hevent ▸ by decide),
      if_neg hdata, if_pos hevent, List.append_nil]
    rfl
  by_cases hid : field = js "id"
  · rw [if_neg hdata, if_neg hevent, if_pos hid, if_neg (hid ▸ by decide), if_neg hdata,
      if_neg hevent, if_pos hid, List.append_nil]
    by_cases hnul : 0 ∈ value <;> simp [hnul]
  by_cases hretry : field = js "retry"
  · rw [if_neg hdata, if_neg hevent, if_neg hid, if_pos hretry, if_neg hdata, if_neg hevent,
      if_neg hid, if_pos hretry, List.append_nil]
    cases hms : natural value <;> simp [hms]
  · simp [hdata, hevent, hid, hretry]

/-- One line that is not empty. -/
lemma line_absorb (d : SseDecoder) {l : JsString} (hl : l ≠ []) :
    d.line l = (d.absorb [l], none) := by
  by_cases hcomment : l.head? = some 58
  · have hfield : fieldOf l = none := if_pos (.inr hcomment)
    rw [line, if_neg hl, if_pos hcomment]
    simp [absorb, dataOf, eventOf, idOf, retryOf, values, hfield]
  · rw [line, if_neg hl, if_neg hcomment, absorb_field d (if_neg (not_or.mpr ⟨hl, hcomment⟩))]

/-- Lines of which none is empty complete no frame. -/
lemma lines_event (d : SseDecoder) {ls : List JsString} (hls : ∀ l ∈ ls, l ≠ []) :
    d.lines ls = (d.absorb ls, []) := by
  induction ls generalizing d with
  | nil => simp [lines, absorb, dataOf, eventOf, idOf, retryOf, values]
  | cons l ls ih =>
      obtain ⟨hl, hls⟩ := List.forall_mem_cons.mp hls
      have happend := d.absorb_append [l] ls
      rw [List.singleton_append] at happend
      simp only [lines, line_absorb d hl, ih _ hls, happend, Option.toList_none, List.nil_append]

/-- Between two events no field is kept. -/
def Between (d : SseDecoder) : Prop := d.data = [] ∧ d.event = none

/-- The decoder behind an event. -/
def after (d : SseDecoder) (ls : List JsString) : SseDecoder :=
  { d with lastId := idOf d.lastId ls, retryMs := retryOf d.retryMs ls }

end SseDecoder

/-- The frame of an event that begins with an id in force; there is none without data. -/
def eventFrames (id : Option JsString) (ls : List JsString) : List SseFrame :=
  if dataOf ls = [] then [] else [⟨idOf id ls, eventOf ls, join [10] (dataOf ls)⟩]

namespace SseDecoder

/-- An event that is ended. -/
lemma lines_ended {d : SseDecoder} (hd : d.Between) {ls : List JsString} (hls : ∀ l ∈ ls, l ≠ []) :
    d.lines (ls ++ [[]]) = (d.after ls, eventFrames d.lastId ls) := by
  obtain ⟨hdata, hevent⟩ := hd
  rw [lines_append, lines_event d hls]
  simp only [lines, line_nil, dispatch, absorb, hdata, hevent, List.nil_append, Option.or_none,
    after, eventFrames]
  split_ifs with h <;> simp [h]

lemma between_after {d : SseDecoder} (hd : d.Between) (ls : List JsString) :
    (d.after ls).Between := hd

/-- Between two events an empty line does nothing. -/
lemma lines_nil_cons {d : SseDecoder} (hd : d.Between) (ls : List JsString) :
    d.lines ([] :: ls) = d.lines ls := by
  obtain ⟨hdata, hevent⟩ := hd
  have hdispatch : d.line [] = (d, none) := by
    rw [line_nil, dispatch, if_pos hdata, ← hevent]
  rw [lines, hdispatch]
  rfl

end SseDecoder

/-! ### Events and their pieces -/

/-- The lines of each event that an empty line ended, and those behind the last one. -/
def events : List StreamLine → List (List StreamLine) × List StreamLine
  | [] => ([], [])
  | l :: ls =>
      if l.text = [] then ([] :: (events ls).1, (events ls).2)
      else match events ls with
        | ([], rest) => ([], l :: rest)
        | (e :: es, rest) => ((l :: e) :: es, rest)

/-- The pieces of an event that end with a line that is cut, and what is behind the last one. -/
def pieces : List StreamLine → List (List JsString) × List JsString
  | [] => ([], [])
  | l :: ls =>
      if l.cut then ([l.text] :: (pieces ls).1, (pieces ls).2)
      else match pieces ls with
        | ([], rest) => ([], l.text :: rest)
        | (p :: ps, rest) => ((l.text :: p) :: ps, rest)

/-- All the pieces of an event. -/
def allPieces (e : List StreamLine) : List (List JsString) := (pieces e).1 ++ [(pieces e).2]

lemma pieces_read (e : List StreamLine) :
    e.flatMap StreamLine.read = (pieces e).1.flatMap (· ++ [[]]) ++ (pieces e).2 := by
  induction e with
  | nil => rfl
  | cons l e ih =>
      rw [List.flatMap_cons, ih, StreamLine.read, pieces]
      split_ifs
      · simp
      · cases h : pieces e with
        | mk ps rest => cases ps <;> simp

lemma pieces_text (e : List StreamLine) :
    (pieces e).1.flatten ++ (pieces e).2 = e.map StreamLine.text := by
  induction e with
  | nil => rfl
  | cons l e ih =>
      rw [List.map_cons, ← ih, pieces]
      split_ifs
      · simp
      · cases h : pieces e with
        | mk ps rest => cases ps <;> simp

lemma flatten_allPieces (e : List StreamLine) :
    (allPieces e).flatten = e.map StreamLine.text := by
  rw [allPieces, List.flatten_append, ← pieces_text]
  simp

lemma events_open {e : List StreamLine} (he : ∀ l ∈ e, l.text ≠ []) : events e = ([], e) := by
  induction e with
  | nil => rfl
  | cons l e ih =>
      obtain ⟨hl, he⟩ := List.forall_mem_cons.mp he
      rw [events, if_neg hl, ih he]

lemma events_ended {e : List StreamLine} (he : ∀ l ∈ e, l.text ≠ []) {b : StreamLine}
    (hb : b.text = []) (rest : List StreamLine) :
    events (e ++ b :: rest) = (e :: (events rest).1, (events rest).2) := by
  induction e with
  | nil => rw [List.nil_append, events, if_pos hb]
  | cons l e ih =>
      obtain ⟨hl, he⟩ := List.forall_mem_cons.mp he
      rw [List.cons_append, events, if_neg hl, ih he]

/-- Induction over the events of a stream. -/
lemma event_induction {motive : List StreamLine → Prop}
    (hopen : ∀ e : List StreamLine, (∀ l ∈ e, l.text ≠ []) → motive e)
    (hended : ∀ (e : List StreamLine) (b : StreamLine) (rest : List StreamLine),
      (∀ l ∈ e, l.text ≠ []) → b.text = [] → motive rest → motive (e ++ b :: rest))
    (ls : List StreamLine) : motive ls := by
  have hbegun : ∀ e : List StreamLine, (∀ l ∈ e, l.text ≠ []) → motive (e ++ ls) := by
    induction ls with
    | nil =>
        intro e he
        rw [List.append_nil]
        exact hopen e he
    | cons l ls ih =>
        intro e he
        by_cases hl : l.text = []
        · exact hended e l ls he hl (ih [] (by simp))
        · have hnext := ih (e ++ [l]) fun l' hl' => by
            rcases List.mem_append.mp hl' with hl' | hl'
            · exact he l' hl'
            · exact List.mem_singleton.mp hl' ▸ hl
          rwa [List.append_assoc, List.singleton_append] at hnext
  exact hbegun [] (by simp)

/-! ### The frames of the pieces -/

/-- The frames of events one after the other. -/
def pieceFrames (id : Option JsString) : List (List JsString) → List SseFrame
  | [] => []
  | p :: ps => eventFrames id p ++ pieceFrames (idOf id p) ps

lemma pieceFrames_append (id : Option JsString) (ps ps' : List (List JsString)) :
    pieceFrames id (ps ++ ps') = pieceFrames id ps ++ pieceFrames (idOf id ps.flatten) ps' := by
  induction ps generalizing id with
  | nil => simp [pieceFrames, idOf, values]
  | cons p ps ih =>
      rw [List.cons_append, pieceFrames, pieceFrames, ih, List.flatten_cons, idOf_append,
        List.append_assoc]

lemma eventFrames_eq_nil {id : Option JsString} {ls : List JsString} :
    eventFrames id ls = [] ↔ dataOf ls = [] := by
  rw [eventFrames]
  split_ifs with h <;> simp [h]

lemma pieceFrames_eq_nil {id : Option JsString} {ps : List (List JsString)} :
    pieceFrames id ps = [] ↔ ∀ p ∈ ps, dataOf p = [] := by
  induction ps generalizing id with
  | nil => simp [pieceFrames]
  | cons p ps ih =>
      rw [pieceFrames, List.append_eq_nil_iff, eventFrames_eq_nil, ih, List.forall_mem_cons]

lemma dataOf_flatten_eq_nil {ps : List (List JsString)} :
    dataOf ps.flatten = [] ↔ ∀ p ∈ ps, dataOf p = [] := by
  induction ps with
  | nil => simp [dataOf, values]
  | cons p ps ih =>
      rw [List.flatten_cons, dataOf_append, List.append_eq_nil_iff, ih, List.forall_mem_cons]

/-- One frame comes from one piece. -/
lemma pieceFrames_singleton {id : Option JsString} {ps : List (List JsString)} {f : SseFrame}
    (h : pieceFrames id ps = [f]) : ∃ before piece after, ps = before ++ piece :: after ∧
      (∀ p ∈ before ++ after, dataOf p = []) ∧ f.event = eventOf piece ∧
      f.id = idOf id (before.flatten ++ piece) := by
  induction ps generalizing id with
  | nil => simp [pieceFrames] at h
  | cons p ps ih =>
      rw [pieceFrames] at h
      by_cases hp : dataOf p = []
      · rw [eventFrames_eq_nil.mpr hp, List.nil_append] at h
        obtain ⟨before, piece, after, rfl, hdata, hevent, hid⟩ := ih h
        refine ⟨p :: before, piece, after, rfl, ?_, hevent, ?_⟩
        · rw [List.cons_append]
          exact List.forall_mem_cons.mpr ⟨hp, hdata⟩
        · rw [hid, List.flatten_cons, List.append_assoc]
          exact (idOf_append id p _).symm
      · rw [eventFrames, if_neg hp, List.singleton_append, List.cons.injEq] at h
        obtain ⟨rfl, hrest⟩ := h
        exact ⟨[], p, ps, rfl, pieceFrames_eq_nil.mp hrest, rfl, rfl⟩

/-- The pieces of an event give its frame: its data are all in one of them, with its name and
with its id in force. -/
def Kept (id : Option JsString) (ps : List (List JsString)) : Prop :=
  dataOf ps.flatten ≠ [] → ∃ before piece after, ps = before ++ piece :: after ∧
    (∀ p ∈ before ++ after, dataOf p = []) ∧ eventOf piece = eventOf ps.flatten ∧
    idOf id (before.flatten ++ piece) = idOf id ps.flatten

lemma pieceFrames_eq_iff {id : Option JsString} {ps : List (List JsString)} :
    pieceFrames id ps = eventFrames id ps.flatten ↔ Kept id ps := by
  constructor
  · intro h hdata
    rw [eventFrames, if_neg hdata] at h
    obtain ⟨before, piece, after, hps, hnone, hevent, hid⟩ := pieceFrames_singleton h
    exact ⟨before, piece, after, hps, hnone, hevent.symm, hid.symm⟩
  · intro h
    by_cases hdata : dataOf ps.flatten = []
    · rw [eventFrames_eq_nil.mpr hdata, pieceFrames_eq_nil]
      exact dataOf_flatten_eq_nil.mp hdata
    · obtain ⟨before, piece, after, hps, hnone, hevent, hid⟩ := h hdata
      have hbefore : ∀ p ∈ before, dataOf p = [] := fun p hp => hnone p (by simp [hp])
      have hafter : ∀ p ∈ after, dataOf p = [] := fun p hp => hnone p (by simp [hp])
      have hpiece : dataOf ps.flatten = dataOf piece := by
        rw [hps, List.flatten_append, List.flatten_cons, dataOf_append, dataOf_append,
          dataOf_flatten_eq_nil.mpr hbefore, dataOf_flatten_eq_nil.mpr hafter, List.nil_append,
          List.append_nil]
      rw [eventFrames, if_neg hdata, hpiece, ← hevent, ← hid, hps, pieceFrames_append, pieceFrames,
        pieceFrames_eq_nil.mpr hbefore, pieceFrames_eq_nil.mpr hafter, List.nil_append,
        List.append_nil, eventFrames, if_neg (hpiece ▸ hdata), idOf_append]

lemma length_eventFrames_le (id : Option JsString) (ps : List (List JsString)) :
    (eventFrames id ps.flatten).length ≤ (pieceFrames id ps).length := by
  by_cases hdata : dataOf ps.flatten = []
  · rw [eventFrames_eq_nil.mpr hdata]
    exact Nat.zero_le _
  · have hne : pieceFrames id ps ≠ [] := fun h =>
      hdata (dataOf_flatten_eq_nil.mpr (pieceFrames_eq_nil.mp h))
    rw [eventFrames, if_neg hdata]
    exact List.length_pos_iff.mpr hne

namespace SseDecoder

/-- Pieces that an empty line ends, one after the other. -/
lemma lines_pieces {d : SseDecoder} (hd : d.Between) {ps : List (List JsString)}
    (hps : ∀ p ∈ ps, ∀ l ∈ p, l ≠ []) :
    d.lines (ps.flatMap (· ++ [[]])) = (d.after ps.flatten, pieceFrames d.lastId ps) := by
  induction ps generalizing d with
  | nil => simp [lines, after, pieceFrames, idOf, retryOf, values]
  | cons p ps ih =>
      obtain ⟨hp, hps⟩ := List.forall_mem_cons.mp hps
      rw [List.flatMap_cons, lines_append, lines_ended hd hp, ih (between_after hd p) hps]
      simp only [after, List.flatten_cons, idOf_append, retryOf_append, pieceFrames]

/-- What both decoders have in common, and when they complete the same frames. -/
structure Agrees (d : SseDecoder) (chunked whole : List JsString) (P : Prop) : Prop where
  lastId : (d.lines chunked).1.lastId = (d.lines whole).1.lastId
  retryMs : (d.lines chunked).1.retryMs = (d.lines whole).1.retryMs
  length : (d.lines whole).2.length ≤ (d.lines chunked).2.length
  frames : (d.lines chunked).2 = (d.lines whole).2 ↔ P

end SseDecoder

/-- Every event that is ended is given by its pieces, from the id in force on. -/
def EventsKept : Option JsString → List (List StreamLine) → Prop
  | _, [] => True
  | id, e :: es => Kept id (allPieces e) ∧ EventsKept (idOf id (e.map StreamLine.text)) es

/-- The lines that are cut change no frame. -/
def LinesKept (id : Option JsString) (ls : List StreamLine) : Prop :=
  EventsKept id (events ls).1 ∧ ∀ p ∈ (pieces (events ls).2).1, dataOf p = []

namespace SseDecoder

/-- The lines of an event that is not ended yet. -/
lemma agrees_open {d : SseDecoder} (hd : d.Between) {e : List StreamLine}
    (he : ∀ l ∈ e, l.text ≠ []) :
    Agrees d (e.flatMap StreamLine.read) (e.map StreamLine.text) (LinesKept d.lastId e) := by
  have htext := pieces_text e
  have hlines : ∀ l ∈ (pieces e).1.flatten ++ (pieces e).2, l ≠ [] := by
    rw [htext]
    exact List.forall_mem_map.mpr he
  have hps : ∀ p ∈ (pieces e).1, ∀ l ∈ p, l ≠ [] := fun p hp l hl =>
    hlines l (List.mem_append_left _ (List.mem_flatten.mpr ⟨p, hp, hl⟩))
  have hrest : ∀ l ∈ (pieces e).2, l ≠ [] := fun l hl => hlines l (List.mem_append_right _ hl)
  have hwhole := lines_event d (List.forall_mem_map.mpr he)
  have hchunked : d.lines (e.flatMap StreamLine.read) =
      ((d.after (pieces e).1.flatten).absorb (pieces e).2, pieceFrames d.lastId (pieces e).1) := by
    rw [pieces_read, lines_append, lines_pieces hd hps, lines_event _ hrest, List.append_nil]
  refine ⟨?_, ?_, ?_, ?_⟩
  · rw [hchunked, hwhole, ← htext]
    exact (idOf_append _ _ _).symm
  · rw [hchunked, hwhole, ← htext]
    exact (retryOf_append _ _ _).symm
  · rw [hwhole]
    exact Nat.zero_le _
  · rw [hchunked, hwhole, pieceFrames_eq_nil, LinesKept, events_open he]
    exact ⟨fun h => ⟨trivial, h⟩, fun h => h.2⟩

/-- The lines of an event that is ended, and those behind it. -/
lemma agrees_ended {d : SseDecoder} (hd : d.Between) {e rest : List StreamLine} {b : StreamLine}
    (he : ∀ l ∈ e, l.text ≠ []) (hb : b.text = [])
    (hrest : Agrees (d.after (e.map StreamLine.text)) (rest.flatMap StreamLine.read)
      (rest.map StreamLine.text) (LinesKept (idOf d.lastId (e.map StreamLine.text)) rest)) :
    Agrees d ((e ++ b :: rest).flatMap StreamLine.read) ((e ++ b :: rest).map StreamLine.text)
      (LinesKept d.lastId (e ++ b :: rest)) := by
  have htext := flatten_allPieces e
  have hps : ∀ p ∈ allPieces e, ∀ l ∈ p, l ≠ [] := by
    intro p hp l hl
    have hmem : l ∈ e.map StreamLine.text := htext ▸ List.mem_flatten.mpr ⟨p, hp, hl⟩
    obtain ⟨line, hline, rfl⟩ := List.mem_map.mp hmem
    exact he line hline
  have hnext := between_after hd (e.map StreamLine.text)
  have hwhole : d.lines ((e ++ b :: rest).map StreamLine.text) =
      (((d.after (e.map StreamLine.text)).lines (rest.map StreamLine.text)).1,
        eventFrames d.lastId (e.map StreamLine.text) ++
          ((d.after (e.map StreamLine.text)).lines (rest.map StreamLine.text)).2) := by
    rw [List.map_append, List.map_cons, hb, ← List.singleton_append, ← List.append_assoc,
      lines_append, lines_ended hd (List.forall_mem_map.mpr he)]
  have hread : (e ++ b :: rest).flatMap StreamLine.read =
      (allPieces e).flatMap (· ++ [[]]) ++
        ((if b.cut then [[]] else []) ++ rest.flatMap StreamLine.read) := by
    rw [List.flatMap_append, List.flatMap_cons, pieces_read, allPieces, List.flatMap_append,
      StreamLine.read, hb]
    split_ifs <;> simp
  have hchunked : d.lines ((e ++ b :: rest).flatMap StreamLine.read) =
      (((d.after (e.map StreamLine.text)).lines (rest.flatMap StreamLine.read)).1,
        pieceFrames d.lastId (allPieces e) ++
          ((d.after (e.map StreamLine.text)).lines (rest.flatMap StreamLine.read)).2) := by
    rw [hread, lines_append, lines_pieces hd hps, htext]
    -- an empty line that is cut is read twice
    split_ifs
    · rw [List.singleton_append, lines_nil_cons hnext]
    · rw [List.nil_append]
  have hlength := htext ▸ length_eventFrames_le d.lastId (allPieces e)
  refine ⟨?_, ?_, ?_, ?_⟩
  · rw [hchunked, hwhole]
    exact hrest.lastId
  · rw [hchunked, hwhole]
    exact hrest.retryMs
  · rw [hchunked, hwhole, List.length_append, List.length_append]
    exact Nat.add_le_add hlength hrest.length
  · have hkept : pieceFrames d.lastId (allPieces e) =
        eventFrames d.lastId (allPieces e).flatten ↔ Kept d.lastId (allPieces e) :=
      pieceFrames_eq_iff
    rw [htext] at hkept
    rw [hchunked, hwhole, LinesKept, events_ended he hb, EventsKept, and_assoc, ← hkept]
    have hframes := hrest.frames
    rw [LinesKept] at hframes
    rw [← hframes]
    constructor
    · intro h
      have hsum := congrArg List.length h
      rw [List.length_append, List.length_append] at hsum
      have hnext := hrest.length
      exact List.append_inj h (by omega)
    · rintro ⟨h, h'⟩
      rw [h, h']

/-- What becomes of the lines if some of them are cut. -/
lemma agrees_lines {d : SseDecoder} (hd : d.Between) (ls : List StreamLine) :
    Agrees d (ls.flatMap StreamLine.read) (ls.map StreamLine.text) (LinesKept d.lastId ls) := by
  induction ls using event_induction generalizing d with
  | hopen e he => exact agrees_open hd he
  | hended e b rest he hb ih => exact agrees_ended hd he hb (ih (between_after hd _))

end SseDecoder

/-- The chunks cut no event so that its frame changes. -/
def KeepsFrames (chunks : List JsString) : Prop := LinesKept none (markedLines (marks chunks)).1

/-- **Chunking matters only for an event that is cut between a CR and its LF**, and there only
if its data are not all in one piece with its name and its id. -/
theorem pushAll_iff (chunks : List JsString) :
    ((SseDecoder.init.pushAll chunks).2 = (SseDecoder.init.push chunks.flatten).2 ∧
      (SseDecoder.init.pushAll chunks).1.lastId = (SseDecoder.init.push chunks.flatten).1.lastId ∧
      (SseDecoder.init.pushAll chunks).1.retryMs =
        (SseDecoder.init.push chunks.flatten).1.retryMs) ↔ KeepsFrames chunks := by
  have hagrees := SseDecoder.agrees_lines (d := SseDecoder.init) ⟨rfl, rfl⟩
    (markedLines (marks chunks)).1
  have hchunked := SseDecoder.pushAll_marks (w := []) (d := SseDecoder.init) (by simp) rfl chunks
  have htext := markedLines_text (marks chunks)
  rw [map_fst_marks] at htext
  have hwhole : SseDecoder.init.push chunks.flatten =
      ({ (SseDecoder.init.lines ((markedLines (marks chunks)).1.map StreamLine.text)).1 with
          buffer := (markedLines (marks chunks)).2 },
        (SseDecoder.init.lines ((markedLines (marks chunks)).1.map StreamLine.text)).2) := by
    rw [SseDecoder.push, SseDecoder.init, List.nil_append, ← htext]
  rw [hchunked, hwhole, List.nil_append]
  exact ⟨fun h => hagrees.frames.mp h.1,
    fun h => ⟨hagrees.frames.mpr h, hagrees.lastId, hagrees.retryMs⟩⟩

/-- Where no line is cut the pieces are the events. -/
lemma linesKept_of_uncut {id : Option JsString} {ls : List StreamLine}
    (h : ∀ l ∈ ls, l.cut = false) : LinesKept id ls := by
  have hpieces : ∀ e : List StreamLine, (∀ l ∈ e, l.cut = false) →
      pieces e = ([], e.map StreamLine.text) := by
    intro e he
    induction e with
    | nil => rfl
    | cons l e ih =>
        obtain ⟨hl, he⟩ := List.forall_mem_cons.mp he
        rw [pieces, hl, ih he]
        rfl
  induction ls using event_induction generalizing id with
  | hopen e he =>
      rw [LinesKept, events_open he, hpieces e h]
      exact ⟨trivial, by simp⟩
  | hended e b rest he hb ih =>
      have hevent : ∀ l ∈ e, l.cut = false := fun l hl => h l (List.mem_append_left _ hl)
      have hrest : LinesKept (idOf id (e.map StreamLine.text)) rest := ih fun l hl =>
        h l (List.mem_append_right _ (List.mem_cons_of_mem _ hl))
      obtain ⟨hevents, hopen⟩ := hrest
      rw [LinesKept, events_ended he hb]
      refine ⟨⟨fun _ => ⟨[], e.map StreamLine.text, [], ?_, by simp, ?_, ?_⟩, hevents⟩, hopen⟩
      · rw [allPieces, hpieces e hevent]
      · rw [flatten_allPieces]
      · rw [flatten_allPieces, List.flatten_nil, List.nil_append]

/-- A line is cut only at a CR that ends a chunk. -/
lemma cut_eq_false {w : List (CodeUnit × Bool)} (hw : ∀ mark ∈ w, mark.1 = 13 → mark.2 = false) :
    ∀ l ∈ (markedLines w).1, l.cut = false := by
  have hunit {c : CodeUnit} {split : List StreamLine × JsString}
      (h : ∀ l ∈ split.1, l.cut = false) : ∀ l ∈ (markUnit c split).1, l.cut = false := by
    obtain ⟨lines, rest⟩ := split
    cases lines with
    | nil => exact h
    | cons line lines => exact List.forall_mem_cons.mpr (List.forall_mem_cons.mp h)
  induction w using markedLines.induct with
  | case1 => simp [markedLines]
  | case2 c last h =>
      rw [markedLines, if_pos h]
      simp [markLine]
  | case3 c last h =>
      rw [markedLines, if_neg h]
      exact hunit (by simp)
  | case4 c last d last' rest h ih =>
      rw [markedLines, if_pos h]
      exact List.forall_mem_cons.mpr ⟨hw (c, last) List.mem_cons_self h.1, ih fun mark hmark =>
        hw mark (List.mem_cons_of_mem _ (List.mem_cons_of_mem _ hmark))⟩
  | case5 c last d last' rest h h' ih =>
      rw [markedLines, if_neg h, if_pos h']
      exact List.forall_mem_cons.mpr ⟨rfl, ih fun mark hmark =>
        hw mark (List.mem_cons_of_mem _ hmark)⟩
  | case6 c last d last' rest h h' ih =>
      rw [markedLines, if_neg h, if_neg h']
      exact hunit (ih fun mark hmark => hw mark (List.mem_cons_of_mem _ hmark))

/-- **Chunks that do not end with a CR** keep every frame. -/
theorem keepsFrames_of_getLast {chunks : List JsString}
    (h : ∀ chunk ∈ chunks, chunk.getLast? ≠ some 13) : KeepsFrames chunks := by
  have hmarks {chunk : JsString} (hlast : chunk.getLast? ≠ some 13) :
      ∀ mark ∈ chunkMarks chunk, mark.1 = 13 → mark.2 = false := by
    induction chunk using chunkMarks.induct with
    | case1 => simp [chunkMarks]
    | case2 c =>
        intro mark hmark hc
        obtain rfl := List.mem_singleton.mp hmark
        exact absurd (congrArg some hc) hlast
    | case3 c d rest ih =>
        rw [List.getLast?_cons_cons] at hlast
        exact List.forall_mem_cons.mpr ⟨fun _ => rfl, ih hlast⟩
  refine linesKept_of_uncut (cut_eq_false fun mark hmark => ?_)
  obtain ⟨chunk, hchunk, hmark⟩ := List.mem_flatMap.mp hmark
  exact hmarks (h chunk hchunk) mark hmark

/-- A chunk that ends between the CR and the LF of a data line makes two events of one: `a` and
`b`, not `a` and `b` on two lines. -/
theorem crlf_split :
    (SseDecoder.init.pushAll [js "data: a\r", js "\ndata: b\r\n\r\n"]).2 ≠
      (SseDecoder.init.push [js "data: a\r", js "\ndata: b\r\n\r\n"].flatten).2 := by
  decide +kernel

end LocalCast.Client
