/-!
# Texts of a least width

Columns of listings and panels: a text shorter than its column is filled up,
a longer one is left as it is.
-/

namespace HackComputer.Text

/-- A text moved to the right end of a column of `width` characters. -/
def alignRight (width : Nat) (text : String) : String :=
  String.ofList (List.replicate (width - text.length) ' ') ++ text

/-- A text at the left end of a column of `width` characters. -/
def alignLeft (width : Nat) (text : String) : String :=
  text ++ String.ofList (List.replicate (width - text.length) ' ')

/-- A number in decimal, with leading zeros up to `width` digits. -/
def zeroPadded (width number : Nat) : String :=
  let digits := toString number
  String.ofList (List.replicate (width - digits.length) '0') ++ digits

theorem toList_alignLeft (width : Nat) (text : String) :
    (alignLeft width text).toList = text.toList ++ List.replicate (width - text.length) ' ' := by
  rw [alignLeft, String.toList_append, String.toList_ofList]

theorem toList_zeroPadded (width number : Nat) :
    (zeroPadded width number).toList =
      List.replicate (width - (Nat.toDigits 10 number).length) '0' ++ Nat.toDigits 10 number := by
  rw [zeroPadded, Nat.toString_eq_repr, String.toList_append, String.toList_ofList,
    ← String.length_toList, Nat.toList_repr]

end HackComputer.Text
