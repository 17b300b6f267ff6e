import EventKernel.Fault

set_option autoImplicit false

/-! Computations that end alike: both meet the same fault, or both return and their results are
related. -/

namespace EventKernel

/-- Two computations meet the same fault, or return related results. -/
def Alike {α β : Type} (related : α → β → Prop) : Except Fault α → Except Fault β → Prop
  | .ok first, .ok second => related first second
  | .error first, .error second => first = second
  | _, _ => False

namespace Alike

variable {α β γ δ : Type} {related : α → β → Prop} {followed : γ → δ → Prop}
  {first : Except Fault α} {second : Except Fault β}

theorem of_eq {first second : Except Fault α} (same : second = first) :
    Alike Eq first second := by
  subst same
  cases second with
  | error fault => exact rfl
  | ok value => exact rfl

theorem of_ok {left : α} {right : β} (here : first = .ok left) (there : second = .ok right)
    (relates : related left right) : Alike related first second := by
  subst here there
  exact relates

theorem bind (alike : Alike related first second) {next : α → Except Fault γ}
    {other : β → Except Fault δ} (follows : ∀ left right, first = .ok left → second = .ok right →
      related left right → Alike followed (next left) (other right)) :
    Alike followed (first >>= next) (second >>= other) := by
  cases first with
  | error fault =>
      cases second with
      | error other => exact alike
      | ok value => exact alike.elim
  | ok left =>
      cases second with
      | error fault => exact alike.elim
      | ok right => exact follows left right rfl rfl alike

theorem map (alike : Alike related first second) {view : α → γ} {other : β → δ}
    (seen : ∀ left right, related left right → followed (view left) (other right)) :
    Alike followed (view <$> first) (other <$> second) := by
  cases first with
  | error fault =>
      cases second with
      | error other => exact alike
      | ok value => exact alike.elim
  | ok left =>
      cases second with
      | error fault => exact alike.elim
      | ok right => exact seen left right alike

theorem imp {looser : α → β → Prop} (alike : Alike related first second)
    (among : ∀ left right, first = .ok left → second = .ok right → related left right →
      looser left right) : Alike looser first second := by
  cases first with
  | error fault =>
      cases second with
      | error other => exact alike
      | ok value => exact alike
  | ok left =>
      cases second with
      | error fault => exact alike
      | ok right => exact among left right rfl rfl alike

theorem of_map {view : γ → α} {viewed : Except Fault γ}
    (alike : Alike related (view <$> viewed) second) :
    Alike (fun left right => related (view left) right) viewed second := by
  cases viewed with
  | error fault =>
      cases second with
      | error other => exact alike
      | ok value => exact alike
  | ok value =>
      cases second with
      | error fault => exact alike
      | ok other => exact alike

theorem returns (alike : Alike related first second) {left : α} (returned : first = .ok left) :
    ∃ right, second = .ok right ∧ related left right := by
  subst returned
  cases second with
  | error fault => exact alike.elim
  | ok right => exact ⟨right, rfl, alike⟩

theorem returned (alike : Alike related first second) {right : β} (returns : second = .ok right) :
    ∃ left, first = .ok left ∧ related left right := by
  subst returns
  cases first with
  | error fault => exact alike.elim
  | ok left => exact ⟨left, rfl, alike⟩

theorem fails (alike : Alike related first second) {fault : Fault} (failed : first = .error fault) :
    second = .error fault := by
  subst failed
  cases second with
  | error other => exact congrArg Except.error (Eq.symm alike)
  | ok right => exact alike.elim

end Alike

end EventKernel
