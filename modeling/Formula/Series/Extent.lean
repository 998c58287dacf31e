/-!
# Extents

The least and the greatest points of a series. A point counts as defined if its value is finite; the others have
no part in the extent, and are counted apart.
-/

namespace Formula

/-- The least and the greatest of the points, and of the values. -/
structure Extent where
  minX : Float
  maxX : Float
  minY : Float
  maxY : Float
deriving DecidableEq

namespace Extent

def empty : Extent := ⟨0, 0, 0, 0⟩

/-- The lesser of two doubles, and the first of equal ones; undefined if one of them is. -/
def lesser (x y : Float) : Float :=
  if x.isNaN || x ≤ y then x else y

/-- The greater of two doubles, and the first of equal ones; undefined if one of them is. -/
def greater (x y : Float) : Float :=
  if x.isNaN || y ≤ x then x else y

def ofPoints (points : List (Float × Float)) : Extent :=
  match points.filter fun point => point.2.isFinite with
  | [] => empty
  | (x, y) :: rest =>
    { minX := rest.foldl (fun least point => lesser least point.1) x
      maxX := rest.foldl (fun greatest point => greater greatest point.1) x
      minY := rest.foldl (fun least point => lesser least point.2) y
      maxY := rest.foldl (fun greatest point => greater greatest point.2) y }

end Extent

/-- The number of points without a finite value. -/
def countUndefined (points : List (Float × Float)) : Nat :=
  points.countP fun point => !point.2.isFinite

end Formula
