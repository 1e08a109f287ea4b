import TurboBench.Text.Field
import TurboBench.Text.Lines

/-!
The parts that the reports of both tools are made of: titles in a double-line frame, indented
lists, and words in hexadecimal.

A frame is as wide as `frameWidth` plus its two sides, whatever the titles are; a title that is
longer sticks out and is not cut.
-/

namespace TurboBench.Banner

open TurboBench.Text (center hexAddress joinLines)

/-- The space for a title between the two sides of a frame. -/
def frameWidth : Nat := 62

/-- The horizontal part of a frame. -/
def bar : String :=
  String.ofList (List.replicate frameWidth '═')

/-- Titles, centred in a frame. -/
def boxed (titles : List String) : List String :=
  ["╔" ++ bar ++ "╗"] ++ titles.map (fun t => "║" ++ center frameWidth t ++ "║")
    ++ ["╚" ++ bar ++ "╝"]

/-- The heading of a tool: its name and dates in a frame, and what it is doing. -/
def heading (product years status : String) : String :=
  joinLines (boxed [product, s!"Copyright (C) {years}", "Borland International"]
    ++ ["", status, ""])

/-- The heading of the report of a run. -/
def runHeading : List String :=
  boxed ["Program Execution Results"] ++ [""]

/-- Items with an indentation before each. -/
def indented (items : List String) (indentation : String) : List String :=
  items.map (indentation ++ ·)

/-- The lowest sixteen bits of a number in hexadecimal. -/
def hexWord (n : Int) : String :=
  hexAddress (n % 0x10000).toNat ++ "h"

/-- A frame has one row per title and two more. -/
theorem length_boxed (titles : List String) : (boxed titles).length = titles.length + 2 := by
  simp [boxed]

theorem length_indented (items : List String) (indentation : String) :
    (indented items indentation).length = items.length := by
  simp [indented]

end TurboBench.Banner
