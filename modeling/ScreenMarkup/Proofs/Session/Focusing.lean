import Mathlib.Data.List.Chain
import Mathlib.Data.List.Induction
import ScreenMarkup.Proofs.Session.Hearing

/-!
# The focus

A text area is marked when it gets the focus, and the session remembers the
last one that got it. A keyboard that is closed takes the mark from the one
that is remembered. One that gets the focus does not take it from another, so
the mark stays on a text area that lost its place in the memory that way,
until it gets the focus again.
-/

set_option autoImplicit false

namespace ScreenMarkup

open Screen (Later)

/-! ## The marks of a screen -/

namespace Screen

variable {s t : Screen} {h k page : Handle}

theorem isFocused_modify (s : Screen) (h k : Handle) {f : Widget → Widget}
    (hf : ∀ w, (f w).focused = w.focused) : (s.modify h f).isFocused k = s.isFocused k := by
  rw [isFocused, isFocused, widget?_modify]
  split
  · next he =>
    rw [he, Option.map_map]
    cases s.widget? h with
    | none => rfl
    | some w => exact hf w
  · rfl

theorem isFocused_setFocused (s : Screen) (h k : Handle) (b : Bool) :
    (s.setFocused h b).isFocused k = if k = h then b && s.isLive h else s.isFocused k := by
  rw [isFocused, setFocused, widget?_modify]
  split
  · rw [isLive]
    cases s.widget? h <;> cases b <;> rfl
  · rfl

theorem isLive_of_isFocused (hf : s.isFocused h = true) : s.isLive h = true := by
  rw [isFocused] at hf
  rw [isLive]
  cases hw : s.widget? h with
  | none =>
    rw [hw] at hf
    cases hf
  | some w => rfl

/-- If none of the widgets that are there is marked, then none is. -/
theorem Sound.isFocused_eq_false (hs : s.Sound)
    (hn : ∀ h ∈ s.shape.handles, s.isFocused h = false) (h : Handle) : s.isFocused h = false := by
  by_contra hf
  rw [Bool.not_eq_false] at hf
  rw [hn h ((hs.live h).mpr (isLive_of_isFocused hf))] at hf
  cases hf

/-- A new widget is not marked. -/
theorem Sound.isFocused_create (hs : s.Sound) (kind : WidgetKind) (parent k : Handle) :
    (s.create kind parent).2.isFocused k = s.isFocused k := by
  rw [isFocused, isFocused, hs.widget?_create]
  split
  · next he =>
    rw [he, hs.create_fresh]
    rfl
  · rfl

end Screen

theorem Widget.realign_focused (w : Widget) (p : Option Size) :
    (w.realign p).focused = w.focused := by
  unfold realign
  split <;> rfl

theorem Widget.setSize_focused (w : Widget) (p : Option Size) (x y : Int) :
    (w.setSize p x y).focused = w.focused :=
  realign_focused _ p

theorem Widget.align_focused (w : Widget) (p : Option Size) (a : Align) (shift : Offset) :
    (w.align p a shift).focused = w.focused :=
  realign_focused _ p

theorem Navigation.keyboard_isFocused {n m : Navigation} {s t : Screen} (hs : s.Sound)
    {page : Handle} {r : Handle × Bool} (he : n.keyboard s page = (r, m, t)) (k : Handle) :
    t.isFocused k = s.isFocused k := by
  unfold keyboard at he
  split at he
  · cases he
    rfl
  · extract_lets size at he
    split at he
    next h made hmade =>
    extract_lets sized hidden at he
    simp only [Prod.mk.injEq] at he
    obtain ⟨-, -, rfl⟩ := he
    have hcreate := hs.isFocused_create .keyboard page k
    rw [hmade] at hcreate
    have hsized : sized.isFocused k = made.isFocused k :=
      Screen.isFocused_modify made h k fun w => w.setSize_focused _ _ _
    have haligned : (sized.align h .bottomMid {}).isFocused k = sized.isFocused k :=
      Screen.isFocused_modify sized h k fun w => w.align_focused _ _ _
    have hhidden : hidden.isFocused k = (sized.align h .bottomMid {}).isFocused k :=
      Screen.isFocused_modify _ h k fun _ => rfl
    exact hhidden.trans (haligned.trans (hsized.trans hcreate))

/-! ## Steps -/

/-- What moves the focus: a text area gets it, or the keyboard of a page is closed. -/
inductive FocusStep where
  | focus (id : String)
  | close (page : Handle) (cancelled : Bool)

/-- What became of the focus. -/
inductive FocusChange where
  | gained (input : Handle)
  | closed
deriving DecidableEq

namespace FocusChange

/-- The text area that is remembered afterwards. -/
def input? : FocusChange → Option Handle
  | gained h => some h
  | closed => none

/-- A text area whose last focus was not ended by a keyboard. -/
def Marked (trace : List FocusChange) (h : Handle) : Prop :=
  ∃ pre post, trace = pre ++ gained h :: post ∧ gained h ∉ post ∧ post.head? ≠ some closed

/-- A text area lost the focus to another one and did not get it back. -/
def Lost (trace : List FocusChange) (h : Handle) : Prop :=
  ∃ pre k post, trace = pre ++ gained h :: gained k :: post ∧ h ≠ k ∧ gained h ∉ post

variable {trace : List FocusChange} {h k : Handle}

theorem marked_nil : ¬ Marked [] h := by
  rintro ⟨pre, post, he, -⟩
  cases pre <;> cases he

theorem marked_gained : Marked (trace ++ [gained k]) h ↔ h = k ∨ Marked trace h := by
  constructor
  · rintro ⟨pre, post, he, hlast, hhead⟩
    rcases List.eq_nil_or_concat post with rfl | ⟨post, last, rfl⟩
    · left
      have heq := (List.append_inj' he rfl).2
      simpa [eq_comm] using heq
    · right
      rw [List.concat_eq_append] at he hlast hhead
      rw [← List.cons_append, ← List.append_assoc] at he
      obtain ⟨rfl, -⟩ := List.append_inj' he rfl
      refine ⟨pre, post, rfl, fun hin => hlast (List.mem_append_left _ hin), fun hclosed => ?_⟩
      exact hhead (by rw [List.head?_append, hclosed]; rfl)
  · rintro (rfl | ⟨pre, post, rfl, hlast, hhead⟩)
    · exact ⟨trace, [], rfl, List.not_mem_nil, nofun⟩
    · by_cases hk : h = k
      · exact ⟨pre ++ gained h :: post, [], by rw [hk], List.not_mem_nil, nofun⟩
      · refine ⟨pre, post ++ [gained k], by simp, ?_, ?_⟩
        · simpa [hk] using hlast
        · cases post with
          | nil => exact nofun
          | cons e post => exact hhead

theorem marked_closed :
    Marked (trace ++ [closed]) h ↔ Marked trace h ∧ trace.getLast? ≠ some (gained h) := by
  constructor
  · rintro ⟨pre, post, he, hlast, hhead⟩
    rcases List.eq_nil_or_concat post with rfl | ⟨post, last, rfl⟩
    · have heq := (List.append_inj' he rfl).2
      cases heq
    · rw [List.concat_eq_append] at he hlast hhead
      rw [← List.cons_append, ← List.append_assoc] at he
      obtain ⟨rfl, hlasts⟩ := List.append_inj' he rfl
      obtain rfl : closed = last := by simpa using hlasts
      have hlast' : gained h ∉ post := fun hin => hlast (List.mem_append_left _ hin)
      cases post with
      | nil => exact absurd rfl hhead
      | cons e post =>
        refine ⟨⟨pre, e :: post, rfl, hlast', hhead⟩, fun hin => hlast' ?_⟩
        rw [List.getLast?_append, List.getLast?_cons_cons] at hin
        cases hl : (e :: post).getLast? with
        | none => cases List.getLast?_eq_none_iff.mp hl
        | some last =>
          rw [hl] at hin
          obtain rfl : last = gained h := by simpa using hin
          exact List.mem_of_getLast? hl
  · rintro ⟨⟨pre, post, rfl, hlast, hhead⟩, hend⟩
    refine ⟨pre, post ++ [closed], by simp, by simpa using hlast, ?_⟩
    cases post with
    | nil => simp at hend
    | cons e post => exact hhead

/-- Where no text area gets the focus right after another one, none loses it that way. -/
theorem not_lost_of_isChain (ht : trace.IsChain fun a b => a = b ∨ a = closed ∨ b = closed) :
    ¬ Lost trace h := by
  rintro ⟨pre, k, post, rfl, hne, -⟩
  rcases (List.isChain_append_cons_cons.mp ht).2.1 with he | he | he
  · cases he
    exact hne rfl
  · cases he
  · cases he

/-- All marks are where the memory says exactly if none was lost. -/
theorem marked_last_iff {before : Option Handle} :
    (∀ h, Marked trace h → ((trace.getLast?.map input?).getD before) = some h) ↔
      ∀ h, ¬ Lost trace h := by
  constructor
  · rintro hall h ⟨pre, k, post, rfl, hne, hlast⟩
    have hnone : gained h ∉ gained k :: post := by simp [hne, hlast]
    have hinput := hall h ⟨pre, gained k :: post, rfl, hnone, nofun⟩
    rw [List.getLast?_append, List.getLast?_cons_cons] at hinput
    cases hl : (gained k :: post).getLast? with
    | none => cases List.getLast?_eq_none_iff.mp hl
    | some last =>
      rw [hl] at hinput
      have hin := List.mem_of_getLast? hl
      cases last with
      | closed => cases hinput
      | gained l =>
        obtain rfl : l = h := by simpa [input?] using hinput
        exact hnone hin
  · rintro hnone h ⟨pre, post, rfl, hlast, hhead⟩
    cases post with
    | nil => simp [input?]
    | cons e post =>
      cases e with
      | closed => exact absurd rfl hhead
      | gained k =>
        have hne : h ≠ k := by
          rintro rfl
          exact hlast List.mem_cons_self
        exact absurd ⟨pre, k, post, rfl, hne, fun hin => hlast (List.mem_cons_of_mem _ hin)⟩
          (hnone h)

end FocusChange

namespace FocusStep

/-- How a user closes a keyboard. -/
def closing (cancelled : Bool) : EventKind := if cancelled then .cancel else .ready

def perform (s : Session) : FocusStep → Session
  | focus id => (s.beginInput id).2
  | close page cancelled =>
    match s.nav.keyboard? page with
    | some k => s.dispatch k (closing cancelled)
    | none => s

/-- A text area that is not found gets no focus, and a page without keyboard closes none. -/
def change? (s : Session) : FocusStep → Option FocusChange
  | focus id => if (s.beginInput id).1.isOk then (s.get? id).map .gained else none
  | close page _ => (s.nav.keyboard? page).map fun _ => .closed

end FocusStep

namespace Session

variable {s t : Session} {h k : Handle} {trace : List FocusChange}

/-- The session after some steps, in order. -/
def focused (s : Session) (steps : List FocusStep) : Session := steps.foldl FocusStep.perform s

/-- What becomes of the focus by some steps. -/
def focusTrace (s : Session) : List FocusStep → List FocusChange
  | [] => []
  | step :: steps => (step.change? s).toList ++ (step.perform s).focusTrace steps

/-- Not more than one text area is marked, and the session remembers it. -/
def SingleFocus (s : Session) : Prop :=
  (∀ h k, s.screen.isFocused h = true → s.screen.isFocused k = true → h = k) ∧
    ∀ h, s.screen.isFocused h = true → s.focusedInput = some h

theorem singleFocus_iff :
    s.SingleFocus ↔ ∀ h, s.screen.isFocused h = true → s.focusedInput = some h := by
  refine ⟨And.right, fun hs => ⟨fun h k hh hk => ?_, hs⟩⟩
  exact Option.some.inj ((hs h hh).symm.trans (hs k hk))

/-- What a change does to the marks and to the memory. -/
def Refocuses (s t : Session) : FocusChange → Prop
  | .gained h => t.focusedInput = some h ∧
      ∀ k, t.screen.isFocused k = true ↔ k = h ∨ s.screen.isFocused k = true
  | .closed => t.focusedInput = none ∧
      ∀ k, t.screen.isFocused k = true ↔ s.screen.isFocused k = true ∧ s.focusedInput ≠ some k

/-! ## Getting the focus -/

/-- The keyboard comes and the text area is remembered, but no mark changes. -/
theorem showKeyboard_focus (hs : s.screen.Sound) {shown : Bool}
    (he : s.showKeyboard h = (shown, t)) :
    (shown = true → t.focusedInput = some h) ∧ (shown = false → t = s) ∧
      ∀ k, t.screen.isFocused k = s.screen.isFocused k := by
  unfold showKeyboard at he
  split at he
  · cases he
    exact ⟨nofun, fun _ => rfl, fun _ => rfl⟩
  · next page hpage =>
    split at he
    next k isNew nav screen hk =>
    extract_lets router shown at he
    cases he
    refine ⟨fun _ => rfl, nofun, fun j => ?_⟩
    have hcreated := Navigation.keyboard_isFocused hs hk j
    have hconfigured := Screen.isFocused_modify screen k j
      (f := (·.configure (.keyboardTarget (some h)))) fun _ => rfl
    have hhidden := Screen.isFocused_modify (screen.configure k (.keyboardTarget (some h))) k j
      (f := ({ · with hidden := false })) fun _ => rfl
    exact hhidden.trans (hconfigured.trans hcreated)

theorem beginInput_focus (hs : s.screen.Sound) (id : String) :
    (s.beginInput id).1.isOk = true ∧
      (∃ h, s.get? id = some h ∧ s.Refocuses (s.beginInput id).2 (.gained h)) ∨
    (s.beginInput id).1.isOk = false ∧ (s.beginInput id).2 = s := by
  unfold beginInput
  split
  · exact .inr ⟨rfl, rfl⟩
  · next h hget =>
    split
    · exact .inr ⟨rfl, rfl⟩
    · next htext =>
      have hgrown := showKeyboard_grows s h
      split
      · next t he =>
        rw [he] at hgrown
        obtain ⟨hinput, -, hmarks⟩ := showKeyboard_focus hs he
        have hkind : s.screen.kind? h = some .textArea := by simpa using htext
        have hlive := (hgrown.moves.screen hs).live h (Screen.isLive_of_kind? hkind)
        refine .inl ⟨rfl, h, hget, hinput rfl, fun k => ?_⟩
        show (t.screen.setFocused h true).isFocused k = true ↔ _
        rw [Screen.isFocused_setFocused, hlive, hmarks]
        split <;> simp [*]
      · next t he => exact .inr ⟨rfl, (showKeyboard_focus hs he).2.1 rfl⟩

/-! ## Closing a keyboard -/

theorem onKeyboard_focus {kind : EventKind} (hkind : kind ∈ closing) (keyboard : Handle) :
    s.Refocuses (s.onKeyboard keyboard kind) .closed := by
  have hclosing : kind = .ready ∨ kind = .cancel := List.mem_pair.mp hkind
  unfold onKeyboard
  rw [if_pos hclosing]
  extract_lets hidden
  have hmarks (k : Handle) : hidden.screen.isFocused k = s.screen.isFocused k :=
    Screen.isFocused_modify s.screen keyboard k fun _ => rfl
  split
  · next input hinput =>
    refine ⟨rfl, fun k => ?_⟩
    show (hidden.screen.setFocused input false).isFocused k = true ↔ _
    rw [Screen.isFocused_setFocused, hmarks, show s.focusedInput = some input from hinput]
    by_cases hk : k = input
    · simp [hk]
    · simp [hk, Ne.symm hk]
  · next hnone =>
    refine ⟨hnone, fun k => ?_⟩
    rw [hmarks, show s.focusedInput = none from hnone]
    simp

theorem Refocuses.closed_again {u : Session} (hs : s.Refocuses t .closed)
    (ht : t.Refocuses u .closed) : s.Refocuses u .closed := by
  refine ⟨ht.1, fun k => ?_⟩
  rw [ht.2, hs.1, hs.2]
  simp

theorem Attentive.close_focus (hs : s.Attentive) {k : Handle × Handle} (hk : k ∈ s.nav.keyboards)
    {kind : EventKind} (hkind : kind ∈ closing) : s.Refocuses (s.dispatch k.2 kind) .closed := by
  obtain ⟨ls, hls, honly⟩ := hs.keyboard_listeners hk hkind
  have hrest : ∀ (ls : List Listener) (t : Session), (∀ l ∈ ls, l = .keyboard) →
      s.Refocuses t .closed →
      s.Refocuses (ls.foldl (fun s l => s.handle k.2 kind l) t) .closed := by
    intro ls
    induction ls with
    | nil => exact fun t _ ht => ht
    | cons l ls ih =>
      intro t hl ht
      refine ih _ (fun m hm => hl m (List.mem_cons_of_mem l hm)) ?_
      rw [hl l List.mem_cons_self]
      exact ht.closed_again (onKeyboard_focus hkind k.2)
  rw [dispatch, hls, List.foldl_cons]
  exact hrest ls _ honly (onKeyboard_focus hkind k.2)

/-! ## Runs -/

theorem FocusStep.closing_mem (cancelled : Bool) : FocusStep.closing cancelled ∈ closing := by
  cases cancelled <;> decide

/-- A step is an operation, and does to the focus what its change says. -/
theorem Attentive.focusStep (hs : s.Attentive) (step : FocusStep) :
    (step.perform s).Attentive ∧
      ((∃ change, step.change? s = some change ∧ s.Refocuses (step.perform s) change) ∨
        step.change? s = none ∧ step.perform s = s) := by
  cases step with
  | focus id =>
    refine ⟨hs.perform (.beginInput id), ?_⟩
    rcases beginInput_focus hs.anchored.screen id with ⟨hok, h, hget, hgained⟩ | ⟨hok, he⟩
    · refine .inl ⟨.gained h, ?_, hgained⟩
      rw [FocusStep.change?, if_pos hok, hget]
      rfl
    · exact .inr ⟨by simp [FocusStep.change?, hok], he⟩
  | close page cancelled =>
    dsimp only [FocusStep.perform, FocusStep.change?]
    cases hk : s.nav.keyboard? page with
    | none => exact ⟨hs, .inr ⟨rfl, rfl⟩⟩
    | some k =>
      refine ⟨hs.perform (.dispatch k _), .inl ⟨.closed, rfl, ?_⟩⟩
      obtain ⟨ks₁, ks₂, hks, -⟩ := List.lookup_eq_some_iff.mp hk
      exact hs.close_focus (k := (page, k)) (by simp [hks]) (FocusStep.closing_mem cancelled)

theorem focusTrace_append (s : Session) (steps : List FocusStep) (step : FocusStep) :
    s.focusTrace (steps ++ [step]) =
      s.focusTrace steps ++ (step.change? (s.focused steps)).toList := by
  induction steps generalizing s with
  | nil => simp [focusTrace, focused]
  | cons first steps ih =>
    rw [List.cons_append, focusTrace, ih, focusTrace, List.append_assoc]
    rfl

/-- After any steps the marks and the memory are what the changes so far made of them. -/
theorem Attentive.focused (hs : s.Attentive) (hnone : ∀ h, s.screen.isFocused h = false)
    (steps : List FocusStep) : (s.focused steps).Attentive ∧
      (s.focused steps).focusedInput =
        ((s.focusTrace steps).getLast?.map FocusChange.input?).getD s.focusedInput ∧
      ∀ h, (s.focused steps).screen.isFocused h = true ↔
        FocusChange.Marked (s.focusTrace steps) h := by
  induction steps using List.reverseRecOn with
  | nil =>
    refine ⟨hs, rfl, fun h => ?_⟩
    simp [Session.focused, focusTrace, hnone, FocusChange.marked_nil]
  | append_singleton steps step ih =>
    obtain ⟨hattentive, hinput, hmarks⟩ := ih
    have hrun : s.focused (steps ++ [step]) = step.perform (s.focused steps) := by
      rw [Session.focused, List.foldl_append]
      rfl
    rw [hrun, focusTrace_append]
    obtain ⟨hnext, ⟨change, hchange, hdone⟩ | ⟨hchange, he⟩⟩ := hattentive.focusStep step
    · refine ⟨hnext, ?_⟩
      rw [hchange, Option.toList_some]
      cases change with
      | gained h =>
        refine ⟨by simp [hdone.1, FocusChange.input?], fun k => ?_⟩
        rw [hdone.2, hmarks, FocusChange.marked_gained]
      | closed =>
        refine ⟨by simp [hdone.1, FocusChange.input?], fun k => ?_⟩
        rw [hdone.2, hmarks, FocusChange.marked_closed]
        refine and_congr_right fun hmarked => not_congr ?_
        rw [hinput]
        cases hlast : (s.focusTrace steps).getLast? with
        | none =>
          rw [List.getLast?_eq_none_iff.mp hlast] at hmarked
          exact absurd hmarked FocusChange.marked_nil
        | some change => cases change <;> simp [FocusChange.input?]
    · rw [hchange, he, Option.toList_none, List.append_nil]
      exact ⟨hattentive, hinput, hmarks⟩

/-- Whatever was done before, if no text area is marked, then after any run of text areas that get
the focus and keyboards that are closed, not more than one is marked, and the session remembers it,
exactly if none lost the focus directly to another one without getting it back. -/
theorem single_focus_iff (config : Config) (history : List Operation) (steps : List FocusStep) :
    let s := (new config).after history
    (∀ h, s.screen.isFocused h = false) →
      ((s.focused steps).SingleFocus ↔ ∀ h, ¬ FocusChange.Lost (s.focusTrace steps) h) := by
  intro s hnone
  have hs : s.Attentive := (Attentive.new config).after history
  obtain ⟨-, hinput, hmarks⟩ := hs.focused hnone steps
  rw [singleFocus_iff, hinput]
  simp only [hmarks]
  exact FocusChange.marked_last_iff

/-- A keyboard is closed before the focus goes to another text area. -/
theorem single_focus_after_close :
    let s := (new {}).after [.render "<page id='p'><input id='a'/><input id='b'/></page>"]
    let t := s.focused [.focus "a", .close ⟨1, 1⟩ false, .focus "b"]
    t.SingleFocus ∧ t.screen.isFocused ⟨3, 1⟩ = true := by
  intro s t
  have hs : s.WellFormed := (wellFormed_new {}).after _
  have hnone : ∀ h, s.screen.isFocused h = false :=
    hs.screen.toSound.isFocused_eq_false (by decide +kernel)
  have hchain : (s.focusTrace [.focus "a", .close ⟨1, 1⟩ false, .focus "b"]).IsChain
      fun a b => a = b ∨ a = .closed ∨ b = .closed := by decide +kernel
  refine ⟨?_, by decide +kernel⟩
  exact (single_focus_iff {} [.render "<page id='p'><input id='a'/><input id='b'/></page>"]
    [.focus "a", .close ⟨1, 1⟩ false, .focus "b"] hnone).mpr
      fun h => FocusChange.not_lost_of_isChain hchain

/-- Two text areas get the focus one after the other, and both are marked. -/
theorem not_single_focus : ¬ ∀ (config : Config) (history : List Operation)
    (steps : List FocusStep), let s := (new config).after history
    (∀ h, s.screen.isFocused h = false) → (s.focused steps).SingleFocus := by
  intro hsingle
  let s := (new {}).after [.render "<page id='p'><input id='a'/><input id='b'/></page>"]
  have hs : s.WellFormed := (wellFormed_new {}).after _
  have hnone : ∀ h, s.screen.isFocused h = false :=
    hs.screen.toSound.isFocused_eq_false (by decide +kernel)
  have hboth := (hsingle {} [.render "<page id='p'><input id='a'/><input id='b'/></page>"]
    [.focus "a", .focus "b"] hnone).1 ⟨2, 1⟩ ⟨3, 1⟩ (by decide +kernel) (by decide +kernel)
  cases hboth

end Session
end ScreenMarkup
