import Mathlib.Algebra.Order.BigOperators.Group.List
import Mathlib.Algebra.Order.Ring.Nat
/-!
# JsonText — JSON arrays of strings as bytes

The compact writer and the reader of an array of strings.  A text is its UTF-8 bytes; the writer escapes the quotation
mark, the backslash and the control characters and copies all other bytes, and the reader takes every escape of the
grammar and whitespace between the tokens.  What is written is read back (`readArray_array`), and dropping texts
does not make it longer (`length_array_sublist`).
-/
namespace JsonText

/-! ## Writing -/

def lowerHex (n : Nat) : UInt8 := if n < 10 then UInt8.ofNat (48 + n) else UInt8.ofNat (87 + n)

def escape (b : UInt8) : List UInt8 :=
  if b = 34 then [92, 34]
  else if b = 92 then [92, 92]
  else if b = 8 then [92, 98]
  else if b = 9 then [92, 116]
  else if b = 10 then [92, 110]
  else if b = 12 then [92, 102]
  else if b = 13 then [92, 114]
  else if b < 32 then [92, 117, 48, 48, lowerHex (b.toNat / 16), lowerHex (b.toNat % 16)]
  else [b]

def quoted (text : List UInt8) : List UInt8 := 34 :: (text.flatMap escape ++ [34])

/-- The elements with commas between them. -/
def elements : List (List UInt8) → List UInt8
  | [] => []
  | [text] => quoted text
  | text :: rest => quoted text ++ 44 :: elements rest

theorem elements_cons_cons (text text' : List UInt8) (rest : List (List UInt8)) :
    elements (text :: text' :: rest) = quoted text ++ 44 :: elements (text' :: rest) := rfl

def array (texts : List (List UInt8)) : List UInt8 := 91 :: (elements texts ++ [93])

/-! ## Reading -/

def isSpace (b : UInt8) : Bool := b == 32 || b == 9 || b == 10 || b == 13

def skipSpace : List UInt8 → List UInt8
  | [] => []
  | b :: rest => if isSpace b then skipSpace rest else b :: rest

def hexDigit (b : UInt8) : Option Nat :=
  if 48 ≤ b ∧ b ≤ 57 then some (b.toNat - 48)
  else if 97 ≤ b ∧ b ≤ 102 then some (b.toNat - 87)
  else if 65 ≤ b ∧ b ≤ 70 then some (b.toNat - 55)
  else none

/-- Four hexadecimal digits. -/
def readUnit : List UInt8 → Option (Nat × List UInt8)
  | a :: b :: c :: d :: rest => do
    let a ← hexDigit a
    let b ← hexDigit b
    let c ← hexDigit c
    let d ← hexDigit d
    some (4096 * a + 256 * b + 16 * c + d, rest)
  | _ => none

def utf8 (code : Nat) : List UInt8 := String.utf8EncodeChar (Char.ofNat code)

/-- What follows `\u`: a code unit, or two that are a surrogate pair. -/
def readUnicode (input : List UInt8) : Option (List UInt8 × List UInt8) := do
  let (unit, rest) ← readUnit input
  if 0xDC00 ≤ unit ∧ unit ≤ 0xDFFF then none
  else if unit < 0xD800 ∨ 0xDBFF < unit then some (utf8 unit, rest)
  else match rest with
  | 92 :: 117 :: rest => do
    let (low, rest) ← readUnit rest
    if low < 0xDC00 ∨ 0xDFFF < low then none
    else some (utf8 (1024 * (unit - 0xD800) + (low - 0xDC00) + 0x10000), rest)
  | _ => none

def simpleEscape (b : UInt8) : Option UInt8 :=
  if b = 34 then some 34
  else if b = 92 then some 92
  else if b = 47 then some 47
  else if b = 98 then some 8
  else if b = 102 then some 12
  else if b = 110 then some 10
  else if b = 114 then some 13
  else if b = 116 then some 9
  else none

/-- What follows a backslash. -/
def readEscape : List UInt8 → Option (List UInt8 × List UInt8)
  | [] => none
  | b :: rest => if b = 117 then readUnicode rest else (simpleEscape b).map (fun c => ([c], rest))

/-- A text up to its closing quotation mark.  Every turn takes a byte, so the fuel is the length of the input. -/
def readText : Nat → List UInt8 → Option (List UInt8 × List UInt8)
  | 0, _ => none
  | _ + 1, [] => none
  | fuel + 1, b :: rest =>
    if b = 34 then some ([], rest)
    else if b = 92 then do
      let (bytes, rest) ← readEscape rest
      let (text, rest) ← readText fuel rest
      some (bytes ++ text, rest)
    else if b < 32 then none
    else do
      let (text, rest) ← readText fuel rest
      some (b :: text, rest)

/-- One or more texts up to the closing bracket: after a comma another text has to come. -/
def readElements : Nat → List UInt8 → Option (List (List UInt8) × List UInt8)
  | 0, _ => none
  | fuel + 1, input =>
    match skipSpace input with
    | 34 :: rest => do
      let (text, rest) ← readText rest.length rest
      match skipSpace rest with
      | 93 :: rest => some ([text], rest)
      | 44 :: rest => do
        let (texts, rest) ← readElements fuel rest
        some (text :: texts, rest)
      | _ => none
    | _ => none

/-- An array, and nothing but whitespace after it. -/
def readArray (input : List UInt8) : Option (List (List UInt8)) :=
  match skipSpace input with
  | 91 :: rest =>
    match skipSpace rest with
    | 93 :: rest => if (skipSpace rest).isEmpty then some [] else none
    | rest => do
      let (texts, rest) ← readElements rest.length rest
      if (skipSpace rest).isEmpty then some texts else none
  | _ => none

/-! ## Reading what was written -/

theorem readUnicode_control (rest : List UInt8) {b : UInt8} (h : b < 32) :
    readUnicode (48 :: 48 :: lowerHex (b.toNat / 16) :: lowerHex (b.toNat % 16) :: rest) = some ([b], rest) := by
  have hunit : ∀ n, n < 32 → ((hexDigit (lowerHex (n / 16))).bind fun c => (hexDigit (lowerHex (n % 16))).map fun d =>
      16 * c + d) = some n := by decide
  have hutf8 : ∀ n, n < 32 → utf8 n = [UInt8.ofNat n] := by decide
  have hlt : b.toNat < 32 := UInt8.lt_iff_toNat_lt.1 h
  obtain ⟨c, hc, hd⟩ := Option.bind_eq_some_iff.1 (hunit b.toNat hlt)
  obtain ⟨d, hd, hsum⟩ := Option.map_eq_some_iff.1 hd
  have hzero : hexDigit 48 = some 0 := by decide
  have hread : readUnit (48 :: 48 :: lowerHex (b.toNat / 16) :: lowerHex (b.toNat % 16) :: rest) =
      some (b.toNat, rest) := by
    simp only [readUnit, hzero, hc, hd, Option.bind_eq_bind, Option.bind_some]
    rw [← hsum]
    simp
  rw [readUnicode, hread]
  simp only [Option.bind_eq_bind, Option.bind_some]
  rw [if_neg (by omega), if_pos (by omega), hutf8 b.toNat hlt, UInt8.ofNat_toNat]

/-- **An escaped byte is read as the byte.** -/
theorem readText_escape (fuel : Nat) (b : UInt8) (input : List UInt8) :
    readText (fuel + 1) (escape b ++ input) = (readText fuel input).map (fun (text, rest) => (b :: text, rest)) := by
  -- a backslash, and what stands for the byte after it
  have hescaped : ∀ tail, readEscape (tail ++ input) = some ([b], input) →
      readText (fuel + 1) (92 :: tail ++ input) = (readText fuel input).map (fun (text, rest) => (b :: text, rest)) := by
    intro tail htail
    rw [List.cons_append, readText, if_neg (by decide), if_pos rfl, htail]
    simp only [Option.bind_eq_bind, Option.bind_some]
    cases readText fuel input <;> rfl
  unfold escape
  split
  · rename_i hb
    exact hescaped [34] (by rw [hb]; rfl)
  split
  · rename_i hb
    exact hescaped [92] (by rw [hb]; rfl)
  split
  · rename_i hb
    exact hescaped [98] (by rw [hb]; rfl)
  split
  · rename_i hb
    exact hescaped [116] (by rw [hb]; rfl)
  split
  · rename_i hb
    exact hescaped [110] (by rw [hb]; rfl)
  split
  · rename_i hb
    exact hescaped [102] (by rw [hb]; rfl)
  split
  · rename_i hb
    exact hescaped [114] (by rw [hb]; rfl)
  split
  · rename_i hcontrol
    exact hescaped [117, 48, 48, lowerHex (b.toNat / 16), lowerHex (b.toNat % 16)] (readUnicode_control input hcontrol)
  · rename_i hquote hslash _ _ _ _ _ hcontrol
    rw [List.singleton_append, readText, if_neg hquote, if_neg hslash, if_neg hcontrol]
    cases readText fuel input <;> rfl

theorem length_escape (b : UInt8) : 1 ≤ (escape b).length := by
  unfold escape
  repeat' split
  all_goals simp

/-- **A text is read up to its closing quotation mark**, whatever follows. -/
theorem readText_text : ∀ (text rest : List UInt8) (fuel : Nat), text.length < fuel →
    readText fuel (text.flatMap escape ++ 34 :: rest) = some (text, rest)
  | [], rest, fuel + 1, _ => rfl
  | b :: text, rest, fuel + 1, h => by
    rw [List.flatMap_cons, List.append_assoc, readText_escape,
      readText_text text rest fuel (by simpa using h)]
    rfl

theorem length_le_flatMap_escape : ∀ text : List UInt8, text.length ≤ (text.flatMap escape).length
  | [] => Nat.le_refl 0
  | b :: text => by
    have hb := length_escape b
    have ih := length_le_flatMap_escape text
    rw [List.flatMap_cons, List.length_append, List.length_cons]
    omega

theorem readText_quoted (text rest : List UInt8) :
    readText (text.flatMap escape ++ 34 :: rest).length (text.flatMap escape ++ 34 :: rest) = some (text, rest) := by
  have hlength := length_le_flatMap_escape text
  refine readText_text text rest _ ?_
  rw [List.length_append, List.length_cons]
  omega

/-- **The elements are read up to the closing bracket.** -/
theorem readElements_elements : ∀ (texts : List (List UInt8)) (text rest : List UInt8) (fuel : Nat), texts.length < fuel →
    readElements fuel (elements (text :: texts) ++ 93 :: rest) = some (text :: texts, rest)
  | [], text, rest, fuel + 1, _ => by
    have hskip : skipSpace (elements [text] ++ 93 :: rest) = 34 :: (text.flatMap escape ++ 34 :: 93 :: rest) := by
      simp [elements, quoted, skipSpace, isSpace]
    rw [readElements, hskip]
    simp only [readText_quoted, Option.bind_eq_bind, Option.bind_some]
    rfl
  | text' :: texts, text, rest, fuel + 1, h => by
    have hskip : skipSpace (elements (text :: text' :: texts) ++ 93 :: rest) =
        34 :: (text.flatMap escape ++ 34 :: 44 :: (elements (text' :: texts) ++ 93 :: rest)) := by
      simp [elements, quoted, skipSpace, isSpace]
    have hcomma : ∀ input, skipSpace (44 :: input) = 44 :: input := fun _ => rfl
    rw [readElements, hskip]
    simp only [readText_quoted, Option.bind_eq_bind, Option.bind_some, hcomma]
    rw [readElements_elements texts text' rest fuel (by simpa using h)]
    rfl

theorem length_le_elements : ∀ texts : List (List UInt8), texts.length ≤ (elements texts).length
  | [] => Nat.le_refl 0
  | [text] => by simp [elements, quoted]
  | text :: text' :: texts => by
    have ih := length_le_elements (text' :: texts)
    simp only [elements_cons_cons, List.length_append, List.length_cons] at ih ⊢
    omega

/-- **What is written is read back.** -/
theorem readArray_array : ∀ texts : List (List UInt8), readArray (array texts) = some texts
  | [] => rfl
  | text :: texts => by
    have hhead : ∃ tail, elements (text :: texts) ++ [93] = 34 :: tail := by
      cases texts with
      | nil | cons => exact ⟨_, rfl⟩
    obtain ⟨tail, htail⟩ := hhead
    have hlength := length_le_elements (text :: texts)
    have hfuel : texts.length < (34 :: tail).length := by
      rw [← htail, List.length_append]
      rw [List.length_cons] at hlength
      omega
    have hread := readElements_elements texts text [] (34 :: tail).length hfuel
    rw [htail] at hread
    have hskip : ∀ b input, isSpace b = false → skipSpace (b :: input) = b :: input := fun b input hb => by
      rw [skipSpace, hb]
      rfl
    rw [readArray, array, htail, hskip 91 _ (by decide)]
    simp only [hskip 34 tail (by decide)]
    change ((readElements (34 :: tail).length (34 :: tail)).bind fun read =>
      if (skipSpace read.2).isEmpty then some read.1 else none) = _
    rw [hread]
    rfl

/-! ## Lengths -/

/-- Every element costs its quoted text and a comma, the last one no comma. -/
theorem length_elements : ∀ texts : List (List UInt8),
    (elements texts).length + min 1 texts.length = (texts.map (fun text => (quoted text).length + 1)).sum
  | [] => rfl
  | [text] => rfl
  | text :: text' :: rest => by
    have ih := length_elements (text' :: rest)
    simp only [elements_cons_cons, List.map_cons, List.sum_cons, List.length_cons, List.length_append] at ih ⊢
    omega

/-- **Fewer texts are not written longer.** -/
theorem length_array_sublist {texts texts' : List (List UInt8)} (h : texts.Sublist texts') :
    (array texts).length ≤ (array texts').length := by
  have hsum := (h.map (fun text => (quoted text).length + 1)).sum_le_sum (fun _ _ => Nat.zero_le _)
  have hlength := length_elements texts
  have hlength' := length_elements texts'
  have hle := h.length_le
  simp only [array, List.length_cons, List.length_append]
  cases texts with
  | nil =>
    simp only [elements, List.length_nil]
    omega
  | cons text rest =>
    rw [List.length_cons] at hlength hle
    omega

end JsonText
