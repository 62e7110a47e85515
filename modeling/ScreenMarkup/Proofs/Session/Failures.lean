import Mathlib.Data.List.Basic
import ScreenMarkup.Session.Operation

/-!
# Operations that fail

What can fail looks for everything it needs before it changes anything. So an
operation that fails leaves the whole session as it was, with its widgets,
canvases, listeners and signals, and a run may leave out what failed in it.
-/

set_option autoImplicit false

namespace ScreenMarkup

/-- Performs an operation and tells whether it succeeded. Most operations cannot fail. -/
def Operation.attempt (o : Operation) (s : Session) : Except Failure Unit × Session :=
  match o with
  | setText id text => s.setText id text
  | setSwitch id checked => s.setSwitch id checked
  | setSlider id value => s.setSlider id value
  | setInput id text => s.setInput id text
  | setAttr id attr value => s.setAttr id attr value
  | draw id f => s.onCanvas id f
  | callOnclick id => s.callOnclick id
  | call name => s.call name
  | beginInput id => s.beginInput id
  | showPage path => s.showPage path
  | navigate href => s.navigate href
  | o => (.ok (), o.perform s)

namespace Session

variable {s : Session}

/-- When the result is a failure, the session is the one from before. -/
def Harmless (s : Session) (r : Except Failure Unit × Session) : Prop :=
  ∀ e, r.1 = .error e → r.2 = s

theorem Harmless.ok (t : Session) : s.Harmless (.ok (), t) := by
  intro e he
  cases he

theorem Harmless.error (e : Failure) : s.Harmless (.error e, s) := fun _ _ => rfl

/-! ## Pages -/

theorem navigated_harmless (r : Except Failure (Navigation × Screen)) :
    s.Harmless (s.navigated r) := by
  cases r with
  | ok m => exact .ok _
  | error e => exact .error e

/-- The path is followed to its end before anything is shown or hidden. -/
theorem showPage_harmless (s : Session) (path : String) : s.Harmless (s.showPage path) :=
  navigated_harmless _

theorem navigate_harmless (s : Session) (href : String) : s.Harmless (s.navigate href) := by
  unfold navigate
  split
  · extract_lets target
    split
    · exact navigated_harmless _
    · split <;> exact navigated_harmless _
  · exact .error _

/-! ## Controls -/

theorem onControl_harmless (s : Session) (id : String) (f : Control → Screen → Screen) :
    s.Harmless (s.onControl id f) := by
  unfold onControl
  split
  · exact .ok _
  · exact .error _

/-- An attribute is known or not before the screen is changed. -/
theorem setAttr_harmless (s : Session) (id attr value : String) :
    s.Harmless (s.setAttr id attr value) := by
  unfold setAttr
  split
  · exact .error _
  · split
    · exact .ok _
    · exact .error _

theorem onCanvas_harmless (s : Session) (id : String) (draw : Canvas → Canvas) :
    s.Harmless (s.onCanvas id draw) := by
  unfold onCanvas
  split
  · exact .error _
  · split
    · exact .error _
    · exact .ok _

theorem callOnclick_harmless (s : Session) (id : String) : s.Harmless (s.callOnclick id) := by
  unfold callOnclick
  split
  · exact .ok _
  · exact .error _

theorem call_harmless (s : Session) (name : String) : s.Harmless (s.call name) := by
  unfold call
  split
  · exact .error _
  · exact .ok _

/-- Without a page around the text area there is no keyboard, and nothing is focused. -/
theorem showKeyboard_harmless (s : Session) (input : Handle)
    (hf : (s.showKeyboard input).1 = false) : (s.showKeyboard input).2 = s := by
  unfold showKeyboard at hf ⊢
  split
  · rfl
  · next page hp =>
    rw [hp] at hf
    cases hf

theorem beginInput_harmless (s : Session) (id : String) : s.Harmless (s.beginInput id) := by
  unfold beginInput
  split
  · exact .error _
  · next h _ =>
    split
    · exact .error _
    · split
      · exact .ok _
      · next t he =>
        have ht := s.showKeyboard_harmless h (by rw [he])
        rw [he] at ht
        rw [show t = s from ht]
        exact .error _

end Session

namespace Operation

theorem attempt_snd (o : Operation) (s : Session) : (o.attempt s).2 = o.perform s := by
  cases o <;> rfl

theorem attempt_harmless (o : Operation) (s : Session) : s.Harmless (o.attempt s) := by
  cases o with
  | setText id text => exact s.onControl_harmless id _
  | setSwitch id checked => exact s.onControl_harmless id _
  | setSlider id value => exact s.onControl_harmless id _
  | setInput id text => exact s.onControl_harmless id _
  | setAttr id attr value => exact s.setAttr_harmless id attr value
  | draw id f => exact s.onCanvas_harmless id f
  | callOnclick id => exact s.callOnclick_harmless id
  | call name => exact s.call_harmless name
  | beginInput id => exact s.beginInput_harmless id
  | showPage path => exact s.showPage_harmless path
  | navigate href => exact s.navigate_harmless href
  | _ => exact .ok _

end Operation

namespace Session

/-- The operations of a run that succeed in their turn. -/
def accepted (s : Session) : List Operation → List Operation
  | [] => []
  | o :: os =>
    match (o.attempt s).1 with
    | .ok () => o :: (o.perform s).accepted os
    | .error _ => s.accepted os

/-- A run does what the operations do that succeed in it. -/
theorem after_accepted (s : Session) (os : List Operation) :
    s.after (s.accepted os) = s.after os := by
  induction os generalizing s with
  | nil => rfl
  | cons o os ih =>
    rw [accepted]
    split
    · exact ih (o.perform s)
    · next e he =>
      have hsame : o.perform s = s := (o.attempt_snd s).symm.trans (o.attempt_harmless s e he)
      show s.after (s.accepted os) = (o.perform s).after os
      rw [hsame, ih]

/-- Whatever was asked for, when the answer is a failure the session is the same in all its parts:
variables, widgets, controls with their canvases, pages, listeners, focus and signals. -/
theorem failed_operation_changes_nothing {s : Session} {o : Operation} {e : Failure}
    (he : (o.attempt s).1 = .error e) : o.attempt s = (.error e, s) ∧ o.perform s = s := by
  have hsame := o.attempt_harmless s e he
  exact ⟨Prod.ext he hsame, (o.attempt_snd s).symm.trans hsame⟩

/-- The text area stands on no page, which is found out last. -/
theorem failed_beginInput_changes_nothing :
    let s := (Session.new {}).render "<input id='i'/>"
    (Operation.beginInput "i").perform s = s := by
  intro s
  have he : ((Operation.beginInput "i").attempt s).1 = .error (.unknownPage "i") := by
    decide +kernel
  exact (failed_operation_changes_nothing he).2

end Session
end ScreenMarkup
