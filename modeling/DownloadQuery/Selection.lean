import DownloadQuery.Filter.Basic

/-!
# Selecting items

Matching a list of items. Items with fields that cannot be read are skipped and recorded, or, in a
strict selection, the first of them ends it. A sum of sizes that is too great ends either.
-/

namespace DownloadQuery

/-- An item that could not be matched. -/
structure ItemFailure where
  index : Nat
  error : FieldError
  deriving DecidableEq, Repr

namespace ItemFailure

def message (e : ItemFailure) : String := s!"Item #{e.index}: " ++ e.error.message

end ItemFailure

/-- The indices of matching items and the failures, both ascending. -/
structure Selection where
  matched : List Nat
  failures : List ItemFailure
  deriving DecidableEq, Repr

/-- Items and what reading them has left behind. -/
structure Stock where
  items : List Item
  tally : Tally

namespace Selection

def isClean (s : Selection) : Bool := s.failures.isEmpty

/-- Matches items, of which the first has the given index. -/
def selectFrom (scene : Scene) (f : Filter) (index : Nat) :
    List Item → Tally → Except Overflow Selection × Stock
  | [], tally => (.ok ⟨[], []⟩, ⟨[], tally⟩)
  | item :: rest, tally =>
    match f.isMatch scene ⟨item, tally⟩ with
    | (.ok b, r) =>
      let (result, stock) := selectFrom scene f (index + 1) rest r.tally
      (result.map fun s => if b then { s with matched := index :: s.matched } else s,
        { stock with items := r.item :: stock.items })
    | (.error (.error e), r) =>
      let (result, stock) := selectFrom scene f (index + 1) rest r.tally
      (result.map fun s => { s with failures := ⟨index, e⟩ :: s.failures },
        { stock with items := r.item :: stock.items })
    | (.error .overflow, r) => (.error ⟨⟩, ⟨r.item :: rest, r.tally⟩)

/-- Matches items up to the first that fails. -/
def selectStrictFrom (scene : Scene) (f : Filter) (index : Nat) :
    List Item → Tally → Except (Halt ItemFailure) (List Nat) × Stock
  | [], tally => (.ok [], ⟨[], tally⟩)
  | item :: rest, tally =>
    match f.isMatch scene ⟨item, tally⟩ with
    | (.error halt, r) => (.error (halt.map (⟨index, ·⟩)), ⟨r.item :: rest, r.tally⟩)
    | (.ok b, r) =>
      let (result, stock) := selectStrictFrom scene f (index + 1) rest r.tally
      (result.map fun matched => if b then index :: matched else matched,
        { stock with items := r.item :: stock.items })

/-- The items that match; items that fail are recorded. -/
def select (scene : Scene) (f : Filter) (stock : Stock) : Except Overflow Selection × Stock :=
  selectFrom scene f 0 stock.items stock.tally

/-- The items that match, if none fails before the end. -/
def selectStrict (scene : Scene) (f : Filter) (stock : Stock) :
    Except (Halt ItemFailure) (List Nat) × Stock :=
  selectStrictFrom scene f 0 stock.items stock.tally

/-- A selection of either manner. -/
def selectWith (scene : Scene) (f : Filter) (strict : Bool) (stock : Stock) :
    Except (Halt ItemFailure) Selection × Stock :=
  if strict then
    let (result, stock) := selectStrict scene f stock
    (result.map fun matched => ⟨matched, []⟩, stock)
  else
    let (result, stock) := select scene f stock
    (liftM result, stock)

end Selection
end DownloadQuery
