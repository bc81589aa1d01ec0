import MockRedirect.Text.Direction
/-! Labels that read one way only, as those beside text written from right to left must. -/
namespace MockRedirect.Domain
open Text

/-- Whether a label has letters or numbers of a script written from right to left. -/
def hasRight (s : List Char) : Bool :=
  s.any fun c => direction c = .right || direction c = .arabicNumber

/-- Whether a label is written in one direction, that of its first character, which is a letter; the
last one, marks left out, is a letter or a digit. Numbers are of one kind. -/
def isOneWay (s : List Char) : Bool :=
  let ds := s.map direction
  let last := (ds.reverse.dropWhile (· = .mark)).head?
  match ds.head? with
  | none => true
  | some .left =>
    !ds.contains .right && !ds.contains .arabicNumber &&
      (last = some .left || last = some .europeanNumber)
  | some .right =>
    !ds.contains .left && !(ds.contains .europeanNumber && ds.contains .arabicNumber) &&
      (last = some .right || last = some .europeanNumber || last = some .arabicNumber)
  | _ => false

example : ["", "a1", "a-b", "אב1", "א۰", "א!ב", "א\u05b7"].all (isOneWay ·.toList) = true := by
  decide +kernel
example : ["1a", "aא", "אב-", "אa", "א0٠", "٠", "-"].any (isOneWay ·.toList) = false := by
  decide +kernel

end MockRedirect.Domain
