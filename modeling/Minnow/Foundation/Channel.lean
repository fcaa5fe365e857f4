import Mathlib.Data.List.Infix
import Mathlib.Order.RelClasses

/-!
# First-in first-out channels

Items leave a channel in the order in which they were put in, and some of them never
leave.  Every item gets a stamp when it is put in, and the stamps only go up.  The state of
the receiving end is below all of them, and the state of the sending end above.
-/

namespace Minnow.Foundation.Channel

variable {Stamp Item : Type*} (before : Stamp → Stamp → Prop) (Good : Stamp → Item → Prop)

/-- The items in the channel, each good for its stamp, between two ends. -/
inductive Stamped : Stamp → List Item → Stamp → Prop
  | nil {low high : Stamp} (ordered : before low high) : Stamped low [] high
  | cons {low stamp high : Stamp} {item : Item} {rest : List Item} (ordered : before low stamp)
      (good : Good stamp item) (behind : Stamped stamp rest high) : Stamped low (item :: rest) high

variable {before Good}

namespace Stamped

variable {low high : Stamp} {items : List Item}

/-- An item comes out with a stamp that is not below the receiving end. -/
theorem take {item : Item} {rest : List Item}
    (stamped : Stamped before Good low (item :: rest) high) :
    ∃ stamp, before low stamp ∧ Good stamp item ∧ Stamped before Good stamp rest high := by
  cases stamped with
  | cons ordered good behind => exact ⟨_, ordered, good, behind⟩

variable [IsPreorder Stamp before]

theorem ends (stamped : Stamped before Good low items high) : before low high := by
  induction stamped with
  | nil ordered => exact ordered
  | cons ordered good behind ih => exact IsTrans.trans _ _ _ ordered ih

/-- The receiving end may be further behind. -/
theorem lower (stamped : Stamped before Good low items high) {lower : Stamp}
    (ordered : before lower low) : Stamped before Good lower items high := by
  cases stamped with
  | nil above => exact .nil (IsTrans.trans _ _ _ ordered above)
  | cons above good behind => exact .cons (IsTrans.trans _ _ _ ordered above) good behind

/-- The sending end moves on. -/
theorem raise (stamped : Stamped before Good low items high) {higher : Stamp}
    (ordered : before high higher) : Stamped before Good low items higher := by
  induction stamped with
  | nil above => exact .nil (IsTrans.trans _ _ _ above ordered)
  | cons above good behind ih => exact .cons above good (ih ordered)

/-- Items that are put in together have one stamp. -/
theorem together {stamp : Stamp} (ordered : before low stamp)
    (good : ∀ item ∈ items, Good stamp item) : Stamped before Good low items stamp := by
  induction items generalizing low with
  | nil => exact .nil ordered
  | cons item rest ih =>
      refine .cons ordered (good item List.mem_cons_self) ?_
      exact ih (refl stamp) (fun other inside => good other (List.mem_cons_of_mem _ inside))

/-- Items go in at the sending end, with its state as their stamp. -/
theorem put (stamped : Stamped before Good low items high) {more : List Item}
    (good : ∀ item ∈ more, Good high item) : Stamped before Good low (items ++ more) high := by
  induction stamped with
  | nil above => exact together above good
  | cons above here behind ih => exact .cons above here (ih good)

/-- Losing items does no harm. -/
theorem lose (stamped : Stamped before Good low items high) {kept : List Item}
    (sublist : kept.Sublist items) : Stamped before Good low kept high := by
  induction stamped generalizing kept with
  | nil above =>
      rw [List.sublist_nil.mp sublist]
      exact .nil above
  | cons above good behind ih =>
      cases sublist with
      | cons _ others => exact (ih others).lower above
      | cons_cons _ others => exact .cons above good (ih others)

end Stamped

end Minnow.Foundation.Channel
