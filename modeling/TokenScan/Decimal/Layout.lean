import TokenScan.Decimal.Shortest

namespace TokenScan.Decimal

structure Layout where
  /-- The fewest digits after the point; with none there is no point. -/
  places : Nat
  /-- The powers of ten of a first digit that are written out, from the first to below the second;
  any other is put behind an `e`. All are written out if there is no such range. -/
  writtenOut : Option (Int × Int)

/-- Shortest digits and no power of ten. -/
def Layout.plain : Layout := ⟨0, none⟩

/-- At least one place, and a power of ten from `1e16` on and below `1e-4`. -/
def Layout.detailed : Layout := ⟨1, some (-4, 16)⟩

/-- Digits without zeros at the end. -/
def significant (d : Decimal) : List Char :=
  ((Nat.toDigits 10 d.coefficient).reverse.dropWhile (· = '0')).reverse

/-- How many digits stand before the point; the point is left of all digits if negative. -/
def pointAt (d : Decimal) : Int := (Nat.toDigits 10 d.coefficient).length + d.exponent

def joined (whole fraction : List Char) : List Char :=
  if fraction = [] then whole else whole ++ '.' :: fraction

/-- The digits `ds` with the point after `p` of them. -/
def positional (places : Nat) (ds : List Char) (p : Int) : List Char :=
  if p ≤ 0 then
    joined ['0'] ((List.replicate (-p).toNat '0' ++ ds).rightpad places '0')
  else
    joined ((ds.take p.toNat).rightpad p.toNat '0') ((ds.drop p.toNat).rightpad places '0')

/-- One digit before the point, and the power of ten. -/
def scientific (ds : List Char) (p : Int) : List Char :=
  joined (ds.take 1) (ds.drop 1) ++ 'e' :: (toString (p - 1)).toList

def Layout.digits (l : Layout) (d : Decimal) : List Char :=
  let ds := significant d
  let p := pointAt d
  match l.writtenOut with
  | some (low, high) =>
    if ds = [] ∨ (low < p ∧ p ≤ high) then positional l.places ds p else scientific ds p
  | none => positional l.places ds p

end TokenScan.Decimal

namespace TokenScan

def Binary64.text (l : Decimal.Layout) (x : Binary64) : String :=
  if x.isNaN then "NaN"
  else
    (if x.isNegative then "-" else "") ++
      if x.magnitude = Binary64.infinite then "inf"
      else String.ofList (l.digits (Decimal.shortest x.magnitude))

example : Binary64.text .plain ⟨0x3EE4F8B588E368F1⟩ = "0.00001" := by decide +kernel

example : Binary64.text .detailed ⟨0x3EE4F8B588E368F1⟩ = "1e-5" := by decide +kernel

example : Binary64.text .detailed ⟨0x8000000000000000⟩ = "-0.0" := by decide +kernel

example : Binary64.text .detailed ⟨0x4341C37937E08000⟩ = "1e16" := by decide +kernel

end TokenScan
