import Mathlib.Data.List.Basic
import Polyscript.Proofs.Text.Places

/-!
# Whole lines

The whole lines of a text are those that are ended, each with its end and with the place at which
it starts; what stands behind the last end of a line is none. The places at which a scan for lines
stops are the starts of whole lines, and the end of the last one, so that a text is cut at two of
them into whole lines.

## Main definitions

* `Text.wholeLines`: the whole lines of a text.
* `Text.linesBetween`: what the lines between two places read.

## Main statements

* `Text.startsLine_iff`: where a line starts.
* `Text.cut?_lines`: the text between two places at which lines start is the lines between them.
-/

namespace Polyscript.Text

/-- The lines of a text that are ended, each with its end. -/
def endedLines (text : List Char) : List (List Char) :=
  (text.splitOn '\n').dropLast.map (· ++ ['\n'])

/-- A line with its end, and the place at which it starts. -/
structure WholeLine where
  start : Nat
  text : List Char

namespace WholeLine

/-- The place behind a line. -/
def stop (l : WholeLine) : Nat := l.start + size l.text

/-- Whether a line lies between two places. -/
def isWithin (start stop : Nat) (l : WholeLine) : Bool := start ≤ l.start && l.stop ≤ stop

theorem isWithin_iff {start stop : Nat} {l : WholeLine} :
    l.isWithin start stop = true ↔ start ≤ l.start ∧ l.stop ≤ stop := by
  simp [isWithin]

end WholeLine

/-- Lines one after the other from a place on. -/
def placed (start : Nat) : List (List Char) → List WholeLine
  | [] => []
  | line :: rest => ⟨start, line⟩ :: placed (start + size line) rest

/-- The whole lines of a text. -/
def wholeLines (text : String) : List WholeLine := placed 0 (endedLines text.toList)

/-- What the lines between two places read. -/
def linesBetween (text : String) (start stop : Nat) : List Char :=
  ((wholeLines text).filter (WholeLine.isWithin start stop)).flatMap WholeLine.text

/-! ### The lines of a text -/

/-- Texts joined by newlines are lines that are ended, all but the last. -/
theorem intercalate_newline (lines : List (List Char)) (last : List Char) :
    ['\n'].intercalate (lines ++ [last]) = lines.flatMap (· ++ ['\n']) ++ last := by
  induction lines with
  | nil => simp
  | cons line rest ih =>
    rw [List.cons_append, List.intercalate_cons_of_ne_nil (by simp), ih]
    simp

/-- A text is its ended lines and a last one. -/
theorem exists_flatten_endedLines (text : List Char) :
    ∃ last, (text.splitOn '\n').getLast? = some last ∧
      text = (endedLines text).flatten ++ last := by
  have nonempty : text.splitOn '\n' ≠ [] := List.splitOn_ne_nil _ _
  refine ⟨_, List.getLast?_eq_some_getLast nonempty, ?_⟩
  rw [endedLines, ← List.flatMap_def, ← intercalate_newline, List.dropLast_append_getLast,
    List.intercalate_splitOn]

theorem flatten_endedLines_newline (front : List Char) :
    (endedLines (front ++ ['\n'])).flatten = front ++ ['\n'] := by
  obtain ⟨last, isLast, split⟩ := exists_flatten_endedLines (front ++ ['\n'])
  rw [List.splitOn_append_cons_self, List.splitOn_nil, List.getLast?_concat,
    Option.some.injEq] at isLast
  rw [← isLast, List.append_nil] at split
  exact split.symm

theorem endedLines_append_newline (front back : List Char) :
    endedLines (front ++ '\n' :: back) = endedLines (front ++ ['\n']) ++ endedLines back := by
  have nonempty : back.splitOn '\n' ≠ [] := List.splitOn_ne_nil _ _
  simp [endedLines, List.splitOn_append_cons_self, List.dropLast_append_of_ne_nil nonempty]

theorem eq_newline_of_mem_endedLines {text line : List Char} (mem : line ∈ endedLines text) :
    ∃ content, line = content ++ ['\n'] := by
  obtain ⟨content, -, rfl⟩ := List.mem_map.1 mem
  exact ⟨content, rfl⟩

/-! ### Where lines start -/

/-- A line starts at the beginning of a text and behind every newline. -/
theorem startsLine_iff_newline {text : String} {place : Nat} :
    startsLine (bytes text) place = true ↔
      place = 0 ∨ ∃ front back, text.toList = front ++ '\n' :: back ∧ size front + 1 = place := by
  cases place with
  | zero => simp [startsLine]
  | succ place =>
    have found : (bytes text)[place]? = some 10 ↔
        ∃ front back, text.toList = front ++ '\n' :: back ∧ size front = place :=
      getElem?_bytes_iff (c := '\n') (by decide)
    simpa [startsLine, newline] using found

/-- A line starts behind any number of the ended lines, and nowhere else. -/
theorem startsLine_iff {text : String} {place : Nat} :
    startsLine (bytes text) place = true ↔
      ∃ front back, endedLines text.toList = front ++ back ∧ size front.flatten = place := by
  rw [startsLine_iff_newline]
  constructor
  · rintro (rfl | ⟨front, back, split, rfl⟩)
    · exact ⟨[], _, rfl, rfl⟩
    · refine ⟨_, _, by rw [split, endedLines_append_newline], ?_⟩
      rw [flatten_endedLines_newline, size_append]
      rfl
  · rintro ⟨front, back, split, rfl⟩
    obtain ⟨last, -, whole⟩ := exists_flatten_endedLines text.toList
    rcases List.eq_nil_or_concat front with rfl | ⟨front, line, rfl⟩
    · exact .inl rfl
    · have mem : line ∈ endedLines text.toList := by simp [split]
      obtain ⟨content, rfl⟩ := eq_newline_of_mem_endedLines mem
      refine .inr ⟨front.flatten ++ content, back.flatten ++ last, ?_, ?_⟩
      · rw [whole, split]
        simp
      · simp [Nat.add_assoc]
        rfl

/-! ### Scans for the start of a line -/

section Scans

variable {text : Array UInt8} {limit floor place : Nat}

theorem le_lineFrom (text : Array UInt8) (limit place : Nat) :
    place ≤ lineFrom text limit place := by
  fun_induction lineFrom text limit place with
  | case1 | case3 => exact Nat.le_refl _
  | case2 place _ _ ih => omega

theorem lineFrom_le (text : Array UInt8) (limit place : Nat) :
    lineFrom text limit place ≤ max limit place := by
  fun_induction lineFrom text limit place with
  | case1 | case3 => omega
  | case2 place _ _ ih => omega

/-- A scan forward stops where a line starts, or at the limit. -/
theorem startsLine_lineFrom (text : Array UInt8) (limit place : Nat) :
    startsLine text (lineFrom text limit place) = true ∨
      lineFrom text limit place = max limit place := by
  fun_induction lineFrom text limit place with
  | case1 place _ starts => exact .inl starts
  | case2 place _ _ ih => exact ih.imp_right (by omega)
  | case3 place _ => exact .inr (by omega)

/-- A scan forward leaves out no start of a line. -/
theorem lineFrom_le_of_startsLine {p : Nat} (starts : startsLine text p = true) (le : place ≤ p) :
    lineFrom text limit place ≤ p := by
  fun_induction lineFrom text limit place with
  | case1 | case3 => exact le
  | case2 place _ inside ih =>
    have : place ≠ p := by
      rintro rfl
      exact inside starts
    exact ih (by omega)

theorem lineUpTo_le (text : Array UInt8) (floor place : Nat) :
    lineUpTo text floor place ≤ place := by
  fun_induction lineUpTo text floor place with
  | case1 | case3 => exact Nat.le_refl _
  | case2 place _ ih => omega

theorem le_lineUpTo (le : floor ≤ place) : floor ≤ lineUpTo text floor place := by
  fun_induction lineUpTo text floor place with
  | case1 | case3 => exact le
  | case2 place inside ih =>
    simp only [Bool.and_eq_true, decide_eq_true_eq] at inside
    exact ih (by omega)

/-- A scan backward stops where a line starts, or at the floor. -/
theorem startsLine_lineUpTo (le : floor ≤ place) :
    startsLine text (lineUpTo text floor place) = true ∨ lineUpTo text floor place = floor := by
  fun_induction lineUpTo text floor place with
  | case1 => exact .inl rfl
  | case2 place inside ih =>
    simp only [Bool.and_eq_true, decide_eq_true_eq] at inside
    exact ih (by omega)
  | case3 place outside =>
    simp only [Bool.and_eq_true, decide_eq_true_eq, Bool.not_eq_true', not_and,
      Bool.not_eq_false] at outside
    by_cases above : floor < place + 1
    · exact .inl (outside above)
    · exact .inr (by omega)

/-- A scan backward leaves out no start of a line. -/
theorem le_lineUpTo_of_startsLine {p : Nat} (starts : startsLine text p = true) (le : p ≤ place) :
    p ≤ lineUpTo text floor place := by
  fun_induction lineUpTo text floor place with
  | case1 | case3 => exact le
  | case2 place inside ih =>
    simp only [Bool.and_eq_true, Bool.not_eq_true'] at inside
    have : p ≠ place + 1 := by
      rintro rfl
      simp [starts] at inside
    exact ih (by omega)

end Scans

/-! ### Lines between two places -/

theorem placed_append (start : Nat) (front back : List (List Char)) :
    placed start (front ++ back) =
      placed start front ++ placed (start + size front.flatten) back := by
  induction front generalizing start with
  | nil => rfl
  | cons line front ih => simp [placed, ih, Nat.add_assoc]

theorem flatMap_text_placed (start : Nat) (lines : List (List Char)) :
    (placed start lines).flatMap WholeLine.text = lines.flatten := by
  induction lines generalizing start with
  | nil => rfl
  | cons line rest ih => simp [placed, ih]

/-- A line stands behind those before it. -/
theorem mem_placed_iff {start : Nat} {lines : List (List Char)} {l : WholeLine} :
    l ∈ placed start lines ↔
      ∃ front back, lines = front ++ l.text :: back ∧ l.start = start + size front.flatten := by
  induction lines generalizing start with
  | nil => simp [placed]
  | cons line rest ih =>
    rw [placed, List.mem_cons, ih]
    constructor
    · rintro (rfl | ⟨front, back, rfl, place⟩)
      · exact ⟨[], rest, rfl, rfl⟩
      · exact ⟨line :: front, back, rfl, by simp [place, Nat.add_assoc]⟩
    · rintro ⟨front, back, split, place⟩
      cases front with
      | nil =>
        obtain ⟨rfl, -⟩ := List.cons.inj split
        exact .inl (by cases l; simp_all)
      | cons first front =>
        obtain ⟨rfl, rfl⟩ := List.cons.inj split
        exact .inr ⟨front, back, rfl, by simp [place, Nat.add_assoc]⟩

/-- A line lies in the range of the lines that it is one of. -/
theorem bounds_of_mem_placed {start : Nat} {lines : List (List Char)} {l : WholeLine}
    (mem : l ∈ placed start lines) : start ≤ l.start ∧ l.stop ≤ start + size lines.flatten := by
  obtain ⟨front, back, rfl, place⟩ := mem_placed_iff.1 mem
  refine ⟨by omega, ?_⟩
  simp only [WholeLine.stop, place, List.flatten_append, List.flatten_cons, size_append]
  omega

/-- No ended line is empty. -/
theorem size_pos_of_mem_endedLines {text line : List Char} (mem : line ∈ endedLines text) :
    0 < size line := by
  obtain ⟨content, rfl⟩ := eq_newline_of_mem_endedLines mem
  have := Char.utf8Size_pos '\n'
  rw [size_append, size_cons]
  omega

section WholeLine

variable {text : String} {l : WholeLine} (mem : l ∈ wholeLines text)
include mem

theorem WholeLine.start_lt_stop : l.start < l.stop := by
  obtain ⟨front, back, split, -⟩ := mem_placed_iff.1 mem
  have isLine : l.text ∈ endedLines text.toList := by simp [split]
  have := size_pos_of_mem_endedLines isLine
  rw [WholeLine.stop]
  omega

theorem WholeLine.startsLine_start : startsLine (bytes text) l.start = true := by
  obtain ⟨front, back, split, place⟩ := mem_placed_iff.1 mem
  exact startsLine_iff.2 ⟨front, _, split, by rw [place, Nat.zero_add]⟩

/-- Where a whole line ends, another line starts. -/
theorem WholeLine.startsLine_stop : startsLine (bytes text) l.stop = true := by
  obtain ⟨front, back, split, place⟩ := mem_placed_iff.1 mem
  refine startsLine_iff.2 ⟨front ++ [l.text], back, by simp [split], ?_⟩
  simp [WholeLine.stop, place]

end WholeLine

/-- Two places at which lines start are some of the ended lines apart. -/
theorem exists_endedLines_between {text : String} {start stop : Nat} (le : start ≤ stop)
    (begins : startsLine (bytes text) start = true) (ends : startsLine (bytes text) stop = true) :
    ∃ front middle back, endedLines text.toList = front ++ middle ++ back ∧
      size front.flatten = start ∧ size (front ++ middle).flatten = stop := by
  obtain ⟨front, rest, split, rfl⟩ := startsLine_iff.1 begins
  obtain ⟨front', rest', split', rfl⟩ := startsLine_iff.1 ends
  rcases List.append_eq_append_iff.1 (split.symm.trans split') with
    ⟨middle, rfl, -⟩ | ⟨middle, rfl, -⟩
  · exact ⟨front, middle, rest', split', rfl, rfl⟩
  · -- the places are the other way around, so there is nothing between them
    refine ⟨front' ++ middle, [], rest, by simpa using split, rfl, ?_⟩
    simp only [List.append_nil, List.flatten_append, size_append] at le ⊢
    omega

/-- The lines between two places are those after the front ones and before the back ones. -/
theorem filter_isWithin_wholeLines {text : String} {front middle back : List (List Char)}
    (split : endedLines text.toList = front ++ middle ++ back) {start stop : Nat}
    (begins : size front.flatten = start) (ends : size (front ++ middle).flatten = stop) :
    (wholeLines text).filter (WholeLine.isWithin start stop) = placed start middle := by
  have lines : wholeLines text = placed 0 front ++ (placed start middle ++ placed stop back) := by
    rw [wholeLines, split, placed_append, placed_append, Nat.zero_add, Nat.zero_add, begins, ends,
      List.append_assoc]
  have forward : ∀ l ∈ wholeLines text, l.start < l.stop := fun l => l.start_lt_stop
  rw [lines] at forward ⊢
  have before : (placed 0 front).filter (WholeLine.isWithin start stop) = [] := by
    refine List.filter_eq_nil_iff.2 fun l mem => ?_
    have := bounds_of_mem_placed mem
    have := forward l (List.mem_append_left _ mem)
    rw [WholeLine.isWithin_iff]
    omega
  have between : (placed start middle).filter (WholeLine.isWithin start stop) =
      placed start middle := by
    refine List.filter_eq_self.2 fun l mem => ?_
    have := bounds_of_mem_placed mem
    rw [List.flatten_append, size_append] at ends
    rw [WholeLine.isWithin_iff]
    omega
  have after : (placed stop back).filter (WholeLine.isWithin start stop) = [] := by
    refine List.filter_eq_nil_iff.2 fun l mem => ?_
    have := bounds_of_mem_placed mem
    have := forward l (List.mem_append_right _ (List.mem_append_right _ mem))
    rw [WholeLine.isWithin_iff]
    omega
  rw [List.filter_append, List.filter_append, before, between, after, List.nil_append,
    List.append_nil]

/-- Between two pairs of places there is the same if the same lines lie there. -/
theorem linesBetween_congr {text : String} {start stop start' stop' : Nat}
    (same : ∀ l ∈ wholeLines text, l.start < l.stop →
      (start ≤ l.start ∧ l.stop ≤ stop ↔ start' ≤ l.start ∧ l.stop ≤ stop')) :
    linesBetween text start stop = linesBetween text start' stop' := by
  rw [linesBetween, linesBetween]
  congr 1
  refine List.filter_congr fun l mem => ?_
  rw [Bool.eq_iff_iff, WholeLine.isWithin_iff, WholeLine.isWithin_iff]
  exact same l mem (l.start_lt_stop mem)

/-- A place at which a line starts falls between two characters. -/
theorem isPlace_of_startsLine {text : String} {place : Nat}
    (starts : startsLine (bytes text) place = true) : IsPlace text place := by
  obtain ⟨front, back, split, rfl⟩ := startsLine_iff.1 starts
  obtain ⟨last, -, whole⟩ := exists_flatten_endedLines text.toList
  exact ⟨front.flatten, back.flatten ++ last, by rw [whole, split]; simp, rfl⟩

/-- The text between two places at which lines start is the lines between them. -/
theorem cut?_startsLine {text : String} {start stop : Nat} (le : start ≤ stop)
    (begins : startsLine (bytes text) start = true) (ends : startsLine (bytes text) stop = true) :
    cut? text.toList start stop = some (linesBetween text start stop) := by
  obtain ⟨front, middle, back, split, begins, ends⟩ := exists_endedLines_between le begins ends
  obtain ⟨last, -, whole⟩ := exists_flatten_endedLines text.toList
  rw [linesBetween, filter_isWithin_wholeLines split begins ends, flatMap_text_placed,
    cut?_eq_some_iff]
  refine ⟨front.flatten, back.flatten ++ last, ?_, begins, ?_⟩
  · rw [whole, split]
    simp
  · rw [← begins, ← ends, List.flatten_append, size_append]

/-- A cut between two places at which lines start, or of nothing, gives the lines between the
places. -/
theorem cut?_lines {text : String} {start stop : Nat} (le : start ≤ stop)
    (isPlace : IsPlace text start)
    (aligned : start < stop →
      startsLine (bytes text) start = true ∧ startsLine (bytes text) stop = true) :
    cut? text.toList start stop = some (linesBetween text start stop) := by
  rcases Nat.lt_or_eq_of_le le with forward | rfl
  · exact cut?_startsLine le (aligned forward).1 (aligned forward).2
  · have nothing : (wholeLines text).filter (WholeLine.isWithin start start) = [] := by
      refine List.filter_eq_nil_iff.2 fun l mem => ?_
      have := l.start_lt_stop mem
      rw [WholeLine.isWithin_iff]
      omega
    obtain ⟨front, back, split, place⟩ := isPlace
    rw [linesBetween, nothing, List.flatMap_nil, cut?_eq_some_iff]
    exact ⟨front, back, by rw [split, List.append_nil], place, rfl⟩

end Polyscript.Text
