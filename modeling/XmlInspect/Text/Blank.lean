/-!
# Blanks

Three different sets of characters count as blank, each where a rule of its own says so:

* `isBlank`: the characters that separate words in any script. Labels, numbers and query
  expressions are trimmed by it.
* `isAsciiBlank`: what may follow the opener of an XML declaration and separates attributes.
* `isXmlBlank`: the four characters that XML itself calls white space.

Each set contains the one that is listed below it.
-/

namespace XmlInspect.Text

/-! ## The three sets -/

/-- The characters with the Unicode property White_Space. -/
def isBlank (c : Char) : Bool :=
  let n := c.toNat
  (0x9 ≤ n && n ≤ 0xD) || n == 0x20 || n == 0x85 || n == 0xA0 || n == 0x1680
    || (0x2000 ≤ n && n ≤ 0x200A) || n == 0x2028 || n == 0x2029 || n == 0x202F || n == 0x205F
    || n == 0x3000

/-- Space, tab, line feed, form feed and carriage return. -/
def isAsciiBlank (c : Char) : Bool :=
  c == ' ' || c == '\t' || c == '\n' || c == '\x0c' || c == '\r'

/-- Space, tab, line feed and carriage return. -/
def isXmlBlank (c : Char) : Bool :=
  c == ' ' || c == '\t' || c == '\n' || c == '\r'

theorem isAsciiBlank_of_isXmlBlank {c : Char} (h : isXmlBlank c = true) : isAsciiBlank c = true := by
  simp only [isXmlBlank, isAsciiBlank, Bool.or_eq_true, beq_iff_eq] at h ⊢
  rcases h with ((h | h) | h) | h <;> simp [h]

/-! ## Trimming -/

/-- Removes the characters of a set from the end. -/
def trimEnd (drop : Char → Bool) (text : List Char) : List Char :=
  (text.reverse.dropWhile drop).reverse

/-- Removes the characters of a set from both ends. -/
def trim (drop : Char → Bool) (text : List Char) : List Char :=
  trimEnd drop (text.dropWhile drop)

/-! ## Words -/

/-- The maximal runs of characters outside a set, in order. -/
def wordsBy (separates : Char → Bool) : List Char → List (List Char)
  | [] => []
  | c :: rest =>
    if separates c then
      wordsBy separates rest
    else
      match rest with
      | [] => [[c]]
      | d :: _ =>
        if separates d then
          [c] :: wordsBy separates rest
        else
          match wordsBy separates rest with
          | [] => [[c]]
          | word :: words => (c :: word) :: words

/-- The words of a text, divided by blanks. -/
def words (text : List Char) : List (List Char) := wordsBy isBlank text

end XmlInspect.Text
