import GoPages.Text.Blank
import GoPages.Text.Pieces

/-!
# Lines and trimming

* `lines` cuts a text at its line feeds. What follows the last line feed is a line only if it is not
  empty.
* `trim` removes white space from both ends, `trimStart` from the start.
-/

namespace GoPages.Text

/-- The text without the white space at its start. -/
def trimStart (cs : List Char) : List Char := cs.dropWhile isBlank

/-- The text without the white space at its end. -/
def trimEnd (cs : List Char) : List Char := (cs.reverse.dropWhile isBlank).reverse

/-- The text without the white space at its ends. -/
def trim (cs : List Char) : List Char := trimEnd (trimStart cs)

/-- The lines of a text. A text that ends with a line feed has no further, empty line after it. -/
def lines (cs : List Char) : List (List Char) :=
  let all := pieces '\n' cs
  if all.getLast? = some [] then all.dropLast else all

end GoPages.Text
