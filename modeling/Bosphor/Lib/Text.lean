import Mathlib.Data.List.Basic

/-!
# Text

The white space of ECMAScript, what trimming it leaves, and code units.

* `trim`: as `String.prototype.trim`; `trim_eq_self` for a text without white
  space at its ends.
* `latin1`: a text as a decoder sees it that reads the low byte of every code
  unit; `latin1_eq_self` for a text of one-byte characters.
* `hasWord`: an infix that no word character touches, as between two `\b` of a
  pattern.
-/

namespace Text

/-- White space, and the ends of lines. -/
def isSpace (c : Char) : Bool :=
  [0x9, 0xA, 0xB, 0xC, 0xD, 0x20, 0xA0, 0x1680, 0x2028, 0x2029, 0x202F, 0x205F, 0x3000, 0xFEFF].contains c.toNat ||
    (0x2000 ≤ c.toNat && c.toNat ≤ 0x200A)

def trimStart (text : List Char) : List Char := text.dropWhile isSpace

def trim (text : List Char) : List Char := (trimStart (trimStart text).reverse).reverse

theorem trimStart_eq_self {text : List Char} (h : ∀ c ∈ text.head?, isSpace c = false) : trimStart text = text := by
  cases text with
  | nil => rfl
  | cons c text =>
    unfold trimStart
    rw [List.dropWhile_cons_of_neg]
    rw [h c rfl]
    decide

/-- A text without white space at its ends. -/
theorem trim_eq_self {text : List Char} (hhead : ∀ c ∈ text.head?, isSpace c = false)
    (hlast : ∀ c ∈ text.getLast?, isSpace c = false) : trim text = text := by
  unfold trim
  rw [trimStart_eq_self hhead, trimStart_eq_self, List.reverse_reverse]
  rwa [List.head?_reverse]

/-! ## Code units -/

/-- The code units of UTF-16. -/
def utf16 (text : List Char) : List Nat :=
  text.flatMap fun c =>
    if c.toNat < 0x10000 then [c.toNat]
    else [0xD800 + (c.toNat - 0x10000) / 0x400, 0xDC00 + (c.toNat - 0x10000) % 0x400]

/-- The characters of the low bytes of the code units. -/
def latin1 (text : List Char) : List Char := (utf16 text).map fun unit => Char.ofNat (unit % 256)

theorem latin1_cons {c : Char} (h : c.toNat < 256) (text : List Char) : latin1 (c :: text) = c :: latin1 text := by
  have hunit : c.toNat < 0x10000 := by omega
  unfold latin1 utf16
  rw [List.flatMap_cons, if_pos hunit, List.map_append, List.map_singleton, Nat.mod_eq_of_lt h, Char.ofNat_toNat,
    List.singleton_append]

theorem latin1_eq_self {text : List Char} (h : ∀ c ∈ text, c.toNat < 256) : latin1 text = text := by
  induction text with
  | nil => rfl
  | cons c rest ih =>
    obtain ⟨hc, hrest⟩ := List.forall_mem_cons.mp h
    rw [latin1_cons hc, ih hrest]

/-! ## Patterns -/

/-- `w` stands somewhere in the text. -/
def occurs (w text : List Char) : Bool := text.tails.any w.isPrefixOf

/-- What `.` of a pattern does not stand for. -/
def isLineEnd (c : Char) : Bool := [0xA, 0xD, 0x2028, 0x2029].contains c.toNat

/-- A word character of a pattern. -/
def isWord (c : Char) : Bool := c.isAlphanum || c == '_'

/-- The text begins with `w`, and no word character follows. -/
def beginsWithWord (w text : List Char) : Bool :=
  w.isPrefixOf text && ((text.drop w.length).head?.all fun c => !isWord c)

/-- `w` stands in the text with no word character on either side; `after` says whether one came before the text. -/
def hasWord (w : List Char) (after : Bool) : List Char → Bool
  | [] => false
  | c :: text => (!after && beginsWithWord w (c :: text)) || hasWord w (isWord c) text

end Text
