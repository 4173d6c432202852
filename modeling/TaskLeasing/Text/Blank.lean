namespace TaskLeasing

/-- The twenty-five characters that Unicode counts as white space. -/
def isBlank (c : Char) : Bool :=
  let n := c.toNat
  (0x09 ≤ n && n ≤ 0x0D) || n == 0x20 || n == 0x85 || n == 0xA0 || n == 0x1680 ||
    (0x2000 ≤ n && n ≤ 0x200A) || n == 0x2028 || n == 0x2029 || n == 0x202F || n == 0x205F ||
    n == 0x3000

/-- The blanks that may part what stands on one line of a document. -/
def isGap (c : Char) : Bool := c == ' ' || c == '\t'

def dropGaps (cs : List Char) : List Char := cs.dropWhile isGap

/-- A text of which nothing is left once blanks are trimmed from its ends. -/
def isBlankText (s : String) : Bool := s.toList.all isBlank

def dropBlanks (cs : List Char) : List Char := cs.dropWhile isBlank

end TaskLeasing
