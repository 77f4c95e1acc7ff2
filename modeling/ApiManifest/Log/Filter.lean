import ApiManifest.Log.Event
import ApiManifest.Text.Basic

/-!
Log filters: directives between commas, each a level for everything or a level for the targets
that begin with a text. Of the directives that apply to an event the one with the longest text
counts, and of equal ones the last.
-/

namespace ApiManifest.Log

structure Directive where
  target : Option (List Char)
  level : Level
  deriving DecidableEq

abbrev Filter := List Directive

namespace Directive

def lower (text : List Char) : List Char :=
  text.map Char.toLower

/-- A level by its name in any case or by its number. -/
def level? (text : List Char) : Option Level :=
  match Text.decimal? (Text.dropPlus text) with
  | some number => Level.all.find? (fun level => level.rank = number)
  | none => Level.all.find? (fun level => lower level.name.toList = lower text)

/-- The characters a directive may begin with. -/
def mayStart (c : Char) : Bool :=
  c.isAlphanum || 128 ≤ c.toNat || c = '-' || c = ':' || c = '_'

/-- A directive. A target whose level is left out takes everything. -/
def parse? (text : List Char) : Option Directive :=
  let target := text.takeWhile (· ≠ '=')
  if !text.head?.any mayStart || target.contains '[' then none
  else match text.dropWhile (· ≠ '=') with
    | [_] => some ⟨some target, .trace⟩
    | _ :: level => (level? level).map (fun level => ⟨some target, level⟩)
    | [] =>
      match level? text with
      | some level => some ⟨none, level⟩
      | none => some ⟨some text, .trace⟩

def applies (directive : Directive) (target : List Char) : Bool :=
  directive.target.all (fun start => start.isPrefixOf target)

/-- How much of a target a directive names; one for everything names least. -/
def weight (directive : Directive) : Nat :=
  match directive.target with
  | none => 0
  | some start => start.length + 1

end Directive

namespace Filter

def parse? (text : String) : Option Filter :=
  ((Text.splitOn ',' text.toList).filter (fun part => !part.isEmpty)).mapM Directive.parse?

/-- The directive that counts for a target. -/
def directive? (filter : Filter) (target : String) : Option Directive :=
  (filter.filter (fun directive => directive.applies target.toList)).foldl
    (fun best directive =>
      match best with
      | some heavier => if heavier.weight ≤ directive.weight then some directive else best
      | none => some directive)
    none

def enables (filter : Filter) (event : Event) : Bool :=
  match directive? filter event.target with
  | some directive => event.level.rank ≤ directive.level.rank
  | none => false

end Filter

end ApiManifest.Log
