import DownloadQuery.Proofs.Condition.Meaning
import DownloadQuery.Proofs.Filter.Leaves
import DownloadQuery.Proofs.Reading.Inquiry

/-!
# Matching and selecting as inquiries

Matching an item asks for the fields of leaves until a leaf decides, and selecting does so for one
item after another. The inquiries here do the same as matching (`Filter.reads_inquiry`) and as
selecting (`Selection.run_inquiry`).
-/

namespace DownloadQuery

namespace Inquiry

variable {α β : Type} {resolve : String → Except FieldError (Option Field)} {scene : Scene}
  {index : Nat}

/-- Whether an inquiry asks for genuine fields only, and does what reading the item at an index
does. -/
structure Reads (resolve : String → Except FieldError (Option Field)) (scene : Scene) (index : Nat)
    (q : Inquiry α) (x : Reading → α × Reading) : Prop where
  genuine : q.Genuine resolve
  run_eq : ∀ stock : Stock, index < stock.items.length → q.run scene stock = stock.readAt index x

theorem reads_pure (a : α) : Reads resolve scene index (pure a) fun r => (a, r) where
  genuine := trivial
  run_eq stock _ := by rw [run_pure, Stock.readAt, Stock.put_reading]

theorem reads_ask {f : Field} (hf : f.Genuine resolve) :
    Reads resolve scene index (ask index f done) (f.value scene) where
  genuine := ⟨hf, fun _ => trivial⟩
  run_eq _ _ := rfl

section
variable {stock : Stock} {q : Inquiry α} {x : Reading → α × Reading}

theorem Reads.run_bind_eq (hq : Reads resolve scene index q x) (h : index < stock.items.length)
    (k : α → Inquiry β) :
    (q >>= k).run scene stock =
      (k (x (stock.reading index)).1).run scene
        (stock.put index (x (stock.reading index)).2) := by
  rw [run_bind, hq.run_eq stock h, Stock.readAt]

theorem Reads.run_put (hq : Reads resolve scene index q x) (h : index < stock.items.length)
    (r : Reading) :
    q.run scene (stock.put index r) = ((x r).1, stock.put index (x r).2) := by
  have hput : index < (stock.put index r).items.length := by
    rw [Stock.length_put]
    exact h
  rw [hq.run_eq _ hput, Stock.readAt, Stock.reading_put h, Stock.put_put]

end

/-! ## Inquiries about truth -/

variable {p q : Inquiry (Except (Halt FieldError) Bool)}
  {a b : Evaluation (Halt FieldError) Reading}

def both (p q : Inquiry (Except (Halt FieldError) Bool)) :
    Inquiry (Except (Halt FieldError) Bool) := do
  match ← p with
  | .ok true => q
  | decided => return decided

def either (p q : Inquiry (Except (Halt FieldError) Bool)) :
    Inquiry (Except (Halt FieldError) Bool) := do
  match ← p with
  | .ok false => q
  | decided => return decided

def complement (p : Inquiry (Except (Halt FieldError) Bool)) :
    Inquiry (Except (Halt FieldError) Bool) := do
  match ← p with
  | .ok b => return .ok !b
  | failed => return failed

theorem Reads.both (hp : Reads resolve scene index p a) (hq : Reads resolve scene index q b) :
    Reads resolve scene index (p.both q) (Evaluation.both a b) where
  genuine := by
    refine genuine_bind hp.genuine fun result => ?_
    rcases result with _ | _ | _
    · trivial
    · trivial
    · exact hq.genuine
  run_eq stock h := by
    rw [Inquiry.both, hp.run_bind_eq h, Stock.readAt, Evaluation.both]
    rcases a (stock.reading index) with ⟨_ | _ | _, r⟩
    · rfl
    · rfl
    · exact hq.run_put h r

theorem Reads.either (hp : Reads resolve scene index p a) (hq : Reads resolve scene index q b) :
    Reads resolve scene index (p.either q) (Evaluation.either a b) where
  genuine := by
    refine genuine_bind hp.genuine fun result => ?_
    rcases result with _ | _ | _
    · trivial
    · exact hq.genuine
    · trivial
  run_eq stock h := by
    rw [Inquiry.either, hp.run_bind_eq h, Stock.readAt, Evaluation.either]
    rcases a (stock.reading index) with ⟨_ | _ | _, r⟩
    · rfl
    · exact hq.run_put h r
    · rfl

theorem Reads.complement (hp : Reads resolve scene index p a) :
    Reads resolve scene index p.complement (Evaluation.complement a) where
  genuine := by
    refine genuine_bind hp.genuine fun result => ?_
    cases result <;> trivial
  run_eq stock h := by
    rw [Inquiry.complement, hp.run_bind_eq h, Stock.readAt, Evaluation.complement]
    rcases a (stock.reading index) with ⟨_ | _, r⟩ <;> rfl

end Inquiry

namespace Leaf

/-- Asks for the field of a leaf and tests its value. -/
def inquiry (index : Nat) (l : Leaf) : Inquiry (Except (Halt FieldError) Bool) := do
  match ← Inquiry.ask index l.field .done with
  | .ok v => return liftM (l.test.passes l.field.name v)
  | .error halt => return .error halt

theorem reads_inquiry {resolve : String → Except FieldError (Option Field)} {l : Leaf}
    (h : l.field.Genuine resolve) (scene : Scene) (index : Nat) :
    Inquiry.Reads resolve scene index (l.inquiry index) (l.isMatch scene) where
  genuine := by
    refine Inquiry.genuine_bind ⟨h, fun _ => trivial⟩ fun result => ?_
    cases result <;> trivial
  run_eq stock hi := by
    rw [inquiry, (Inquiry.reads_ask h).run_bind_eq hi, Stock.readAt, isMatch]
    rcases l.field.value scene (stock.reading index) with ⟨_ | _, r⟩ <;> rfl

end Leaf

namespace Filter

mutual

/-- Asks for the fields of leaves until the filter is decided. -/
def inquiry (index : Nat) : Filter → Inquiry (Except (Halt FieldError) Bool)
  | .leaf l => l.inquiry index
  | .all members => allInquiry index members
  | .any members => anyInquiry index members
  | .not inner => (inquiry index inner).complement

def allInquiry (index : Nat) : List Filter → Inquiry (Except (Halt FieldError) Bool)
  | [] => return .ok true
  | f :: rest => (inquiry index f).both (allInquiry index rest)

def anyInquiry (index : Nat) : List Filter → Inquiry (Except (Halt FieldError) Bool)
  | [] => return .ok false
  | f :: rest => (inquiry index f).either (anyInquiry index rest)

end

/-- Whether all fields that a filter compares are genuine. -/
abbrev Genuine (resolve : String → Except FieldError (Option Field)) (f : Filter) : Prop :=
  f.AllLeaves fun l => l.field.Genuine resolve

variable {resolve : String → Except FieldError (Option Field)}

mutual

/-- The inquiry of a filter does what matching does. -/
theorem reads_inquiry {f : Filter} (h : f.Genuine resolve) (scene : Scene) (index : Nat) :
    Inquiry.Reads resolve scene index (f.inquiry index) (f.isMatch scene) := by
  cases f with
  | leaf l => exact l.reads_inquiry (allLeaves_leaf.1 h) scene index
  | all members =>
    rw [isMatch_all]
    exact reads_allInquiry (allLeaves_all.1 h) scene index
  | any members =>
    rw [isMatch_any]
    exact reads_anyInquiry (allLeaves_any.1 h) scene index
  | not inner =>
    rw [isMatch_not]
    exact (reads_inquiry (allLeaves_not.1 h) scene index).complement

theorem reads_allInquiry {members : List Filter} (h : ∀ f ∈ members, f.Genuine resolve)
    (scene : Scene) (index : Nat) :
    Inquiry.Reads resolve scene index (allInquiry index members) (allMatch scene members) := by
  cases members with
  | nil => exact Inquiry.reads_pure _
  | cons f rest =>
    obtain ⟨hf, hrest⟩ := List.forall_mem_cons.1 h
    rw [allMatch_cons]
    exact (reads_inquiry hf scene index).both (reads_allInquiry hrest scene index)

theorem reads_anyInquiry {members : List Filter} (h : ∀ f ∈ members, f.Genuine resolve)
    (scene : Scene) (index : Nat) :
    Inquiry.Reads resolve scene index (anyInquiry index members) (anyMatch scene members) := by
  cases members with
  | nil => exact Inquiry.reads_pure _
  | cons f rest =>
    obtain ⟨hf, hrest⟩ := List.forall_mem_cons.1 h
    rw [anyMatch_cons]
    exact (reads_inquiry hf scene index).either (reads_anyInquiry hrest scene index)

end

theorem genuine_inquiry {f : Filter} (h : f.Genuine resolve) (index : Nat) :
    (f.inquiry index).Genuine resolve :=
  -- Any scene will do, as it has no part in what may be asked for.
  (f.reads_inquiry h ⟨⟨.fixed 0, 0⟩, fun _ => false, fun _ => none⟩ index).genuine

end Filter

/-! ## Selecting -/

namespace Stock

/-- A stock with more items in front of its own. -/
def behind (before : List Item) (stock : Stock) : Stock := ⟨before ++ stock.items, stock.tally⟩

theorem reading_behind (before : List Item) (item : Item) (rest : List Item) (tally : Tally) :
    Stock.reading ⟨before ++ item :: rest, tally⟩ before.length = ⟨item, tally⟩ := by
  simp [reading, Stock.item]

theorem put_behind (before : List Item) (item : Item) (rest : List Item) (tally : Tally)
    (r : Reading) :
    Stock.put ⟨before ++ item :: rest, tally⟩ before.length r =
      ⟨before ++ [r.item] ++ rest, r.tally⟩ := by
  simp [put]

end Stock

namespace Selection

/-- Matches some items, of which the first has the given index. -/
def inquiryFrom (f : Filter) (index : Nat) : Nat → Inquiry (Except Overflow Selection)
  | 0 => return .ok ⟨[], []⟩
  | count + 1 => do
    match ← f.inquiry index with
    | .ok b =>
      let result ← inquiryFrom f (index + 1) count
      return result.map fun s => if b then { s with matched := index :: s.matched } else s
    | .error (.error e) =>
      let result ← inquiryFrom f (index + 1) count
      return result.map fun s => { s with failures := ⟨index, e⟩ :: s.failures }
    | .error .overflow => return .error ⟨⟩

/-- Matches some items up to the first that fails. -/
def strictInquiryFrom (f : Filter) (index : Nat) :
    Nat → Inquiry (Except (Halt ItemFailure) (List Nat))
  | 0 => return .ok []
  | count + 1 => do
    match ← f.inquiry index with
    | .error halt => return .error (halt.map (⟨index, ·⟩))
    | .ok b =>
      let result ← strictInquiryFrom f (index + 1) count
      return result.map fun matched => if b then index :: matched else matched

/-- Selects of a number of items in either manner. -/
def inquiry (f : Filter) (strict : Bool) (count : Nat) :
    Inquiry (Except (Halt ItemFailure) Selection) :=
  if strict then do return (← strictInquiryFrom f 0 count).map fun matched => ⟨matched, []⟩
  else do return liftM (← inquiryFrom f 0 count)

variable {resolve : String → Except FieldError (Option Field)} {f : Filter}

theorem genuine_inquiryFrom (h : f.Genuine resolve) (index count : Nat) :
    (inquiryFrom f index count).Genuine resolve := by
  induction count generalizing index with
  | zero => trivial
  | succ count ih =>
    refine Inquiry.genuine_bind (f.genuine_inquiry h index) fun result => ?_
    rcases result with (e | _) | b
    · exact Inquiry.genuine_bind (ih (index + 1)) fun _ => trivial
    · trivial
    · exact Inquiry.genuine_bind (ih (index + 1)) fun _ => trivial

theorem genuine_strictInquiryFrom (h : f.Genuine resolve) (index count : Nat) :
    (strictInquiryFrom f index count).Genuine resolve := by
  induction count generalizing index with
  | zero => trivial
  | succ count ih =>
    refine Inquiry.genuine_bind (f.genuine_inquiry h index) fun result => ?_
    cases result with
    | error e => trivial
    | ok b => exact Inquiry.genuine_bind (ih (index + 1)) fun _ => trivial

theorem genuine_inquiry (h : f.Genuine resolve) (strict : Bool) (count : Nat) :
    (inquiry f strict count).Genuine resolve := by
  unfold inquiry
  split
  · exact Inquiry.genuine_bind (genuine_strictInquiryFrom h 0 count) fun _ => trivial
  · exact Inquiry.genuine_bind (genuine_inquiryFrom h 0 count) fun _ => trivial

theorem run_inquiryFrom (h : f.Genuine resolve) (scene : Scene) (before rest : List Item)
    (tally : Tally) :
    (inquiryFrom f before.length rest.length).run scene ⟨before ++ rest, tally⟩ =
      (selectFrom scene f before.length rest tally).map id (Stock.behind before) := by
  induction rest generalizing before tally with
  | nil => simp [inquiryFrom, selectFrom, Stock.behind]
  | cons item rest ih =>
    have hi : before.length < (before ++ item :: rest).length := by simp
    rw [List.length_cons, inquiryFrom, (f.reads_inquiry h scene before.length).run_bind_eq hi,
      Stock.reading_behind, Stock.put_behind, selectFrom]
    rcases f.isMatch scene ⟨item, tally⟩ with ⟨result, r⟩
    have hrest := ih (before ++ [r.item]) r.tally
    rw [List.length_append, List.length_singleton] at hrest
    rcases result with (e | _) | b
    · dsimp only
      rw [Inquiry.run_bind, hrest]
      simp [Stock.behind]
    · simp [Stock.behind]
    · dsimp only
      rw [Inquiry.run_bind, hrest]
      simp [Stock.behind]

theorem run_strictInquiryFrom (h : f.Genuine resolve) (scene : Scene) (before rest : List Item)
    (tally : Tally) :
    (strictInquiryFrom f before.length rest.length).run scene ⟨before ++ rest, tally⟩ =
      (selectStrictFrom scene f before.length rest tally).map id (Stock.behind before) := by
  induction rest generalizing before tally with
  | nil => simp [strictInquiryFrom, selectStrictFrom, Stock.behind]
  | cons item rest ih =>
    have hi : before.length < (before ++ item :: rest).length := by simp
    rw [List.length_cons, strictInquiryFrom,
      (f.reads_inquiry h scene before.length).run_bind_eq hi, Stock.reading_behind,
      Stock.put_behind, selectStrictFrom]
    rcases f.isMatch scene ⟨item, tally⟩ with ⟨e | b, r⟩
    · simp [Stock.behind]
    · have hrest := ih (before ++ [r.item]) r.tally
      rw [List.length_append, List.length_singleton] at hrest
      dsimp only
      rw [Inquiry.run_bind, hrest]
      simp [Stock.behind]

/-- The inquiry of a selection does what selecting does. -/
theorem run_inquiry (h : f.Genuine resolve) (scene : Scene) (strict : Bool) (stock : Stock) :
    (inquiry f strict stock.items.length).run scene stock = selectWith scene f strict stock := by
  cases strict with
  | true =>
    have hrun := run_strictInquiryFrom h scene [] stock.items stock.tally
    simp only [List.length_nil, List.nil_append] at hrun
    simp [inquiry, selectWith, selectStrict, hrun, Stock.behind]
  | false =>
    have hrun := run_inquiryFrom h scene [] stock.items stock.tally
    simp only [List.length_nil, List.nil_append] at hrun
    simp [inquiry, selectWith, select, hrun, Stock.behind]

end Selection
end DownloadQuery
