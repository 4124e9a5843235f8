import PageObjects.Text.Basic

namespace PageObjects

/-- One number of a dotted quad: at most 255, without leading zeros. -/
def isOctet (t : Text) : Bool :=
  !t.isEmpty && t.length ≤ 3 && t.all Char.isDigit &&
    (t == ['0'] || t.head? != some '0') &&
    t.foldl (fun n c => 10 * n + (c.toNat - '0'.toNat)) 0 ≤ 255

/-- Four numbers with points between them. -/
def isDottedQuad (t : Text) : Bool :=
  let parts := Text.pieces (· == '.') t
  parts.length == 4 && parts.all isOctet

def isHexadecimal (c : Char) : Bool :=
  c.isDigit || ('a' ≤ c && c ≤ 'f') || ('A' ≤ c && c ≤ 'F')

/-- One group of at most four hexadecimal digits. -/
def isGroup (t : Text) : Bool := !t.isEmpty && t.length ≤ 4 && t.all isHexadecimal

/-- The groups of an address; a dotted quad at the end stands for two of them. -/
def addressGroups? (t : Text) : Option (List Text) :=
  let parts := Text.pieces (· == ':') t
  if parts.length < 3 then none
  else
    let last := parts.getLastD []
    if last.contains '.' then
      if isDottedQuad last then some (parts.dropLast ++ [['0'], ['0']]) else none
    else some parts

/-- Whether groups fill an address: eight of them, or fewer with one gap. An empty group at either
end belongs to the gap. -/
def fillAddress (parts : List Text) : Bool :=
  let inner := (parts.drop 1).dropLast
  let gaps := inner.filter List.isEmpty
  if gaps.isEmpty then parts.length == 8 && parts.all isGroup
  else
    let before := (parts.take 1 ++ inner.takeWhile fun p => !p.isEmpty)
    let after := (inner.dropWhile fun p => !p.isEmpty).drop 1 ++ parts.drop (parts.length - 1)
    let high := if before == [[]] then [] else before
    let low := if after == [[]] then [] else after
    gaps.length == 1 && parts.length ≤ 9 && high.all isGroup && low.all isGroup &&
      high.length + low.length < 8

/-- Colon-separated groups with an optional zone behind a percent sign. -/
def isGroupedAddress (t : Text) : Bool :=
  let (address, zone) := Text.cutAt '%' t
  let zoneFits := match zone with
    | none => true
    | some z => !z.isEmpty && !z.contains '%'
  zoneFits && !t.contains '/' && (addressGroups? address).any fillAddress

end PageObjects
