import Polyscript.Text.Offset

/-!
# Places and characters

The bytes of a text are those of its characters, one character after the other. A byte of an ASCII
character stands for nothing else, so a place at which it is found falls between two characters.
A cut is possible at any two places that fall between characters, and gives what is between them.

## Main definitions

* `Text.IsPlace`: the places between two characters and at the ends of a text.

## Main statements

* `Text.getElem?_bytes_iff`: an ASCII character and its byte are found at the same places.
* `Text.cut?_eq_some_iff`: a cut gives the characters between two places.
-/

namespace Polyscript.Text

/-- The number of bytes of characters. -/
def size : List Char → Nat
  | [] => 0
  | c :: rest => c.utf8Size + size rest

@[simp] theorem size_nil : size [] = 0 := rfl

@[simp] theorem size_cons (c : Char) (rest : List Char) :
    size (c :: rest) = c.utf8Size + size rest := rfl

@[simp] theorem size_append (front back : List Char) :
    size (front ++ back) = size front + size back := by
  induction front with
  | nil => simp
  | cons c front ih => simp [ih, Nat.add_assoc]

/-- The bytes of a text are those of its characters. -/
theorem toList_bytes (text : String) :
    (bytes text).toList = text.toList.flatMap String.utf8EncodeChar := by
  rw [bytes, String.toUTF8, ← String.utf8Encode_toList, List.utf8Encode]
  simp

theorem size_flatMap_encode (text : List Char) :
    (text.flatMap String.utf8EncodeChar).length = size text := by
  induction text with
  | nil => rfl
  | cons c rest ih => simp [ih]

theorem size_bytes (text : String) : (bytes text).size = size text.toList := by
  rw [← Array.length_toList, toList_bytes, size_flatMap_encode]

theorem utf8ByteSize_eq_size (text : String) : text.utf8ByteSize = size text.toList :=
  size_bytes text

/-- Whether a place falls between two characters of a text or is an end of it. -/
def IsPlace (text : String) (place : Nat) : Prop :=
  ∃ front back, text.toList = front ++ back ∧ size front = place

theorem IsPlace.le {text : String} {place : Nat} (h : IsPlace text place) :
    place ≤ (bytes text).size := by
  obtain ⟨front, back, split, rfl⟩ := h
  rw [size_bytes, split, size_append]
  exact Nat.le_add_right ..

/-! ### ASCII characters -/

/-- A byte of a character that is not ASCII is 128 or above. -/
theorem le_of_mem_encode {d : Char} (long : 127 < d.val.toNat) {byte : UInt8}
    (mem : byte ∈ String.utf8EncodeChar d) : 128 ≤ byte.toNat := by
  unfold String.utf8EncodeChar at mem
  dsimp only at mem
  rw [if_neg (by omega)] at mem
  repeat' split at mem
  all_goals
    simp only [List.mem_cons, List.not_mem_nil, or_false] at mem
    rcases mem with rfl | rfl | rfl | rfl <;> rw [UInt8.toNat_ofNat'] <;> omega

/-- The byte of an ASCII character is a byte of no other character. -/
theorem eq_of_mem_encode {c d : Char} (ascii : c.val < 128)
    (mem : c.val.toUInt8 ∈ String.utf8EncodeChar d) : d = c := by
  have small : c.val.toNat < 128 := ascii
  have byte : c.val.toUInt8.toNat = c.val.toNat := by
    rw [UInt32.toNat_toUInt8, Nat.mod_eq_of_lt (by omega)]
  by_cases short : d.val.toNat ≤ 127
  · rw [String.utf8EncodeChar, if_pos short, List.mem_singleton] at mem
    have : c.val.toNat = d.val.toNat % 256 := by rw [← byte, mem, UInt8.toNat_ofNat']
    exact Char.ext (UInt32.toNat_inj.1 (by omega))
  · have := le_of_mem_encode (by omega) mem
    omega

/-- An ASCII character is a single byte. -/
theorem encode_ascii {c : Char} (ascii : c.val < 128) :
    String.utf8EncodeChar c = [c.val.toUInt8] := by
  have small : c.val.toNat ≤ 127 := Nat.le_of_lt_succ ascii
  rw [String.utf8EncodeChar, if_pos small, UInt8.ofNat_uInt32ToNat]

/-- The byte of an ASCII character is found just where the character is. -/
theorem getElem?_encode_iff {c : Char} (ascii : c.val < 128) {text : List Char} {place : Nat} :
    (text.flatMap String.utf8EncodeChar)[place]? = some c.val.toUInt8 ↔
      ∃ front back, text = front ++ c :: back ∧ size front = place := by
  induction text generalizing place with
  | nil => simp
  | cons d rest ih =>
    have positive := d.utf8Size_pos
    rw [List.flatMap_cons]
    by_cases inside : place < d.utf8Size
    · rw [List.getElem?_append_left (by simpa using inside)]
      constructor
      · intro found
        obtain rfl : d = c := eq_of_mem_encode ascii (List.mem_of_getElem? found)
        rw [encode_ascii ascii] at found
        obtain rfl : place = 0 := by
          have := (List.getElem?_eq_some_iff.1 found).1
          rw [List.length_singleton] at this
          omega
        exact ⟨[], rest, rfl, rfl⟩
      · rintro ⟨front, back, same, rfl⟩
        cases front with
        | nil =>
          obtain ⟨rfl, -⟩ := List.cons.inj same
          rw [encode_ascii ascii]
          rfl
        | cons e front =>
          obtain ⟨rfl, -⟩ := List.cons.inj same
          rw [size_cons] at inside
          omega
    · rw [List.getElem?_append_right (by simpa using inside), String.length_utf8EncodeChar, ih]
      constructor
      · rintro ⟨front, back, rfl, length⟩
        exact ⟨d :: front, back, rfl, by rw [size_cons]; omega⟩
      · rintro ⟨front, back, same, rfl⟩
        cases front with
        | nil => simp at inside; omega
        | cons e front =>
          obtain ⟨rfl, rfl⟩ := List.cons.inj same
          exact ⟨front, back, rfl, by simp⟩

/-- An ASCII character and its byte are found at the same places of a text. -/
theorem getElem?_bytes_iff {c : Char} (ascii : c.val < 128) {text : String} {place : Nat} :
    (bytes text)[place]? = some c.val.toUInt8 ↔
      ∃ front back, text.toList = front ++ c :: back ∧ size front = place := by
  rw [← Array.getElem?_toList, toList_bytes, getElem?_encode_iff ascii]

/-! ### Cuts -/

theorem splitAt?_cons {n : Nat} (positive : 0 < n) (c : Char) (rest : List Char) :
    splitAt? n (c :: rest) =
      if c.utf8Size ≤ n then
        (splitAt? (n - c.utf8Size) rest).map fun (front, back) => (c :: front, back)
      else none := by
  obtain ⟨n, rfl⟩ := Nat.exists_eq_add_one.2 positive
  rfl

theorem splitAt?_append (front back : List Char) :
    splitAt? (size front) (front ++ back) = some (front, back) := by
  induction front with
  | nil => rw [size_nil, splitAt?.eq_def]; rfl
  | cons c front ih =>
    have positive := c.utf8Size_pos
    rw [size_cons, List.cons_append, splitAt?_cons (by omega), if_pos (Nat.le_add_right ..),
      Nat.add_sub_cancel_left, ih]
    rfl

theorem splitAt?_eq_some_iff {n : Nat} {text front back : List Char} :
    splitAt? n text = some (front, back) ↔ text = front ++ back ∧ size front = n := by
  constructor
  · intro split
    refine ⟨(append_of_splitAt? split).symm, ?_⟩
    rw [← utf8ByteSize_of_splitAt? split, utf8ByteSize_eq_size, String.toList_ofList]
  · rintro ⟨rfl, rfl⟩
    exact splitAt?_append front back

/-- A cut gives what is between two places. -/
theorem cut?_eq_some_iff {text middle : List Char} {start stop : Nat} :
    cut? text start stop = some middle ↔
      ∃ front back, text = front ++ middle ++ back ∧ size front = start ∧
        start + size middle = stop := by
  simp only [cut?, Option.bind_eq_bind, Option.ite_none_right_eq_some, Option.bind_eq_some_iff,
    Prod.exists, splitAt?_eq_some_iff, Option.pure_def, Option.some.injEq]
  constructor
  · rintro ⟨forward, front, _, ⟨rfl, start⟩, _, back, ⟨rfl, length⟩, rfl⟩
    exact ⟨front, back, (List.append_assoc ..).symm, start, by omega⟩
  · rintro ⟨front, back, rfl, start, stop⟩
    exact ⟨by omega, front, _, ⟨List.append_assoc .., start⟩, middle, back, ⟨rfl, by omega⟩, rfl⟩

/-- There is no cut behind the end of a text. -/
theorem le_of_cut? {text : String} {middle : List Char} {start stop : Nat}
    (cut : cut? text.toList start stop = some middle) : stop ≤ (bytes text).size := by
  obtain ⟨front, back, split, rfl, rfl⟩ := cut?_eq_some_iff.1 cut
  rw [size_bytes, split, size_append, size_append]
  omega

end Polyscript.Text
