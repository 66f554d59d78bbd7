import ToolCatalog.Text.Case

/-!
Letters that count as the same where case is ignored.

Two letters count as the same if they have one lower case, or lower cases that share an upper case.
-/
namespace ToolCatalog.Text

/-- The groups of lower-case letters that share an upper case. -/
def lowerMates : List (List Char) :=
  [['i', 'ı'], ['s', 'ſ'], ['µ', 'μ'], ['\u0345', 'ι', '\u1FBE'], ['ΐ', '\u1FD3'],
    ['ΰ', '\u1FE3'], ['β', 'ϐ'], ['ε', 'ϵ'], ['θ', 'ϑ'], ['κ', 'ϰ'], ['π', 'ϖ'], ['ρ', 'ϱ'],
    ['ς', 'σ'], ['φ', 'ϕ'], ['в', '\u1C80'], ['д', '\u1C81'], ['о', '\u1C82'],
    ['с', '\u1C83'], ['т', '\u1C84', '\u1C85'], ['ъ', '\u1C86'], ['ѣ', '\u1C87'],
    ['\u1C88', 'ꙋ'], ['ṡ', 'ẛ'], ['ﬅ', 'ﬆ']]

/-- The lower-case letters that count as the same as this lower-case letter, itself included. -/
def mates (c : Char) : List Char :=
  (lowerMates.find? (·.contains c)).getD [c]

/-- The characters that count as the same as this one. -/
def variants (c : Char) : List Char :=
  (mates (lowerLetter c)).flatMap fun m => m :: capitals m

/-- The lower case of an ASCII letter; every other character is its own. -/
def asciiLower (c : Char) : Char :=
  c.toLower

/-- The characters that count as the same as this one where only ASCII letters have case. -/
def asciiVariants (c : Char) : List Char :=
  [c.toLower, c.toUpper]

end ToolCatalog.Text
