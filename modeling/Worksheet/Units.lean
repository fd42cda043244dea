/-
**Units of measurement.**

Units come in categories; each has a factor, the number of such units in one base unit of the
category. A unit name belongs to the first category that lists it, spelled exactly so.
-/

import Worksheet.Text.Basic

namespace Worksheet

/-- A kind of quantity, with the factors of its units. -/
structure Category where
  name : Text
  /-- The number of units that make up one base unit, unit by unit. -/
  units : List (Text × Float)

namespace Category

/-- The factor of a unit, if the category lists it. -/
def factor? (category : Category) (unit : Text) : Option Float :=
  category.units.lookup unit

/-- Lengths, in metres. -/
def length : Category where
  name := "length".toList
  units := [("m".toList, 1.0), ("km".toList, 0.001), ("cm".toList, 100.0), ("mm".toList, 1000.0),
    ("mi".toList, 0.000621371), ("yd".toList, 1.09361), ("ft".toList, 3.28084),
    ("in".toList, 39.3701)]

/-- Weights, in kilograms. -/
def weight : Category where
  name := "weight".toList
  units := [("kg".toList, 1.0), ("g".toList, 1000.0), ("mg".toList, 1000000.0),
    ("lb".toList, 2.20462), ("oz".toList, 35.274)]

/-- Volumes, in litres. -/
def volume : Category where
  name := "volume".toList
  units := [("l".toList, 1.0), ("ml".toList, 1000.0), ("gal".toList, 0.264172),
    ("qt".toList, 1.05669), ("pt".toList, 2.11338), ("cup".toList, 4.22675),
    ("fl oz".toList, 33.814)]

/-- Amounts of data, in bits. -/
def data : Category where
  name := "data".toList
  units := [("b".toList, 1.0), ("B".toList, 0.125), ("KB".toList, 0.000125),
    ("MB".toList, 1.25e-7), ("GB".toList, 1.25e-10), ("TB".toList, 1.25e-13),
    ("Kib".toList, 0.00012207), ("Mib".toList, 1.19209e-7), ("Gib".toList, 1.16415e-10)]

/-- All categories, in the order in which a unit is looked for. -/
def all : List Category :=
  [length, weight, volume, data]

/-- The category with a name. -/
def ofName? (name : Text) : Option Category :=
  all.find? fun category => category.name == name

/-- The first category that lists a unit. -/
def ofUnit? (unit : Text) : Option Category :=
  all.find? fun category => (category.factor? unit).isSome

end Category

end Worksheet
