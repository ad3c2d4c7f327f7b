namespace FactGraph.Text

def isBlank (c : Char) : Bool :=
  let code := c.toNat
  (0x9 ≤ code && code ≤ 0xD) || code == 0x20 || code == 0x85 || code == 0xA0 || code == 0x1680 ||
    (0x2000 ≤ code && code ≤ 0x200A) || code == 0x2028 || code == 0x2029 || code == 0x202F ||
    code == 0x205F || code == 0x3000

def leadingBlanks (text : List Char) : List Char := text.takeWhile isBlank

def trimStart (text : List Char) : List Char := text.dropWhile isBlank

def trimEnd (text : List Char) : List Char := (text.reverse.dropWhile isBlank).reverse

theorem leadingBlanks_append_trimStart (text : List Char) :
    leadingBlanks text ++ trimStart text = text :=
  List.takeWhile_append_dropWhile

def width (text : List Char) : Nat := text.foldr (fun c rest => c.utf8Size + rest) 0

@[simp] theorem width_nil : width [] = 0 := rfl

@[simp] theorem width_cons (c : Char) (text : List Char) :
    width (c :: text) = c.utf8Size + width text := rfl

@[simp] theorem width_append (first second : List Char) :
    width (first ++ second) = width first + width second := by
  induction first with
  | nil => simp
  | cons c first ih => rw [List.cons_append, width_cons, width_cons, ih, Nat.add_assoc]

def counterBound : Nat := UInt64.size

/-- Reads one or more decimal digits, after a plus sign if there is one. -/
def readCounter (text : List Char) : Option Nat :=
  let digits := match text with
    | '+' :: rest => rest
    | _ => text
  if digits.isEmpty || !digits.all Char.isDigit then none
  else
    let value := Nat.ofDigitChars 10 digits 0
    if value < counterBound then some value else none

def writeCounter (value : Nat) : List Char := Nat.toDigits 10 value

end FactGraph.Text
