import ScreenMarkup.Proofs.Session.Top

/-!
# The screen of a session, over a run

Rendering puts widgets on the screen and clearing takes them away, and neither
changes the screen. So in a session that was new once, it is that of a new one.
-/

set_option autoImplicit false

namespace ScreenMarkup

open Screen (SameTop)

namespace Screen

variable {s : Screen}

theorem Sound.delete_sameTop (hs : s.Sound) (h : Handle) : SameTop s (s.delete h) := by
  rcases delete_eq_or s h with he | ⟨hh, b, hb⟩
  · rw [he]
    exact SameTop.refl s
  · rw [SameTop, hs.widget?_delete hh hb, if_neg (hs.root_not_mem hh hb)]

theorem Sound.clean_sameTop (hs : s.Sound) (h : Handle) : SameTop s (s.clean h) :=
  (clean_keeps (P := fun t => t.Sound ∧ SameTop s t)
    (fun _ k ht => ⟨ht.1.delete k, ht.2.trans (ht.1.delete_sameTop k)⟩)
    ⟨hs, SameTop.refl s⟩ h).2

end Screen

namespace Session

variable {s t : Session} {h : Handle} {v : Screen} {w : Size → Option Widget}

namespace Topped

/-! ## Laying out -/

theorem grow (ht : s.Topped w) (nav : Navigation) (hv : s.screen.SameTop v) :
    ({ s with nav := nav, screen := v } : Session).Topped w :=
  ⟨Eq.trans hv ht.widget, ht.unowned, ht.focused⟩

theorem setPageBackground (ht : s.Topped w) (hh : h ≠ Handle.screen) (page : Element) :
    (s.setPageBackground h page).Topped w := by
  unfold Session.setPageBackground
  extract_lets color
  split
  · exact ht
  · exact ht.redraw ((Screen.setBackground_restyles s.screen h _).sameTop hh)

theorem pushPage (ht : s.Topped w) (id : String) (hh : h ≠ Handle.screen) :
    (s.pushPage id h).Topped w := by
  refine ⟨ht.widget, fun c hc => ?_, ht.focused⟩
  rcases List.mem_append.mp hc with hc | hc
  · exact ht.unowned c hc
  · rw [List.mem_singleton.mp hc]
    exact fun ho => hh (owns_page ho)

theorem renderPage (ht : s.Topped w) (hs : s.WellFormed) (page : Element) :
    (s.renderPage page).1.Topped w := by
  unfold Session.renderPage
  extract_lets id
  split
  · exact ht
  · split
    next h m v he =>
    obtain ⟨hadd, -, -⟩ := Navigation.addPage_spec hs.screen hs.nav he
    have hne : h ≠ Handle.screen := (hadd.ne hs.screen.screen_live).symm
    exact ((ht.grow m (Navigation.addPage_sameTop hs.screen.toSound he)).setPageBackground hne
      page).pushPage id hne

theorem renderTile (ht : s.Topped w) (hs : s.WellFormed) (gi : Nat) (group : String)
    (page : Element) : (Session.renderTile gi group s page).1.Topped w := by
  unfold Session.renderTile
  extract_lets id
  split
  · exact ht
  · next h m v he =>
    obtain ⟨hadd, -, -⟩ := Navigation.addTile?_spec hs.screen hs.nav he
    have hne : h ≠ Handle.screen := (hadd.ne hs.screen.screen_live).symm
    exact ((ht.grow m (Navigation.addTile?_sameTop hs.screen hs.nav he)).setPageBackground hne
      page).pushPage (group ++ "/" ++ id) hne

theorem renderTiles (ht : s.Topped w) (hs : s.WellFormed) (gi : Nat) (group : String)
    (pages : List Element) : (collect (Session.renderTile gi group) pages s).1.Topped w :=
  (collect_places (P := fun s t => s.Topped w → t.Topped w) (fun _ ht => ht)
    (fun _ _ _ h₁ h₂ ht => h₂ (h₁ ht))
    (fun _ page hs => ⟨(renderTile_places hs gi group page).1,
      fun ht => ht.renderTile hs gi group page⟩) pages hs).2 ht

theorem renderGroup (ht : s.Topped w) (hs : s.WellFormed) (group : Element) :
    (s.renderGroup group).1.Topped w := by
  unfold Session.renderGroup
  extract_lets id
  split
  · exact ht
  · split
    next gi m v he =>
    extract_lets s₁
    split
    next s₂ contents hc =>
    split
    next m' v' hf =>
    extract_lets s₃
    obtain ⟨_, hadd, -, -, -, hm⟩ := Navigation.addGroup_spec hs.screen hs.nav he
    have hs₁ : s₁.WellFormed := hs.grow hadd.preserves hm
    have ht₁ : s₁.Topped w := ht.grow m (Navigation.addGroup_sameTop hs.screen.toSound he)
    have ht₂ := ht₁.renderTiles hs₁ gi id (tilePages group s₁.config.maxPagesPerGroup)
    obtain ⟨⟨hl₂, -⟩, -⟩ :=
      renderTiles_places hs₁ gi id (tilePages group s₁.config.maxPagesPerGroup)
    rw [hc] at ht₂ hl₂
    have hs₃ : s₃.WellFormed := (finishGroup_lays hl₂.wellFormed hf).1.wellFormed
    have ht₃ : s₃.Topped w :=
      ht₂.grow m' (Navigation.finishGroup_sameTop hl₂.wellFormed.screen hf)
    split
    · exact ht₃
    · next g hg =>
      have hview : g.view ≠ Handle.screen :=
        hs₃.screen.ne_top (hs₃.nav.view g (List.mem_of_getElem? hg)) fun h => by cases h
      have hlisten : ({ s₃ with
          router := s₃.router.on g.view .valueChanged (.tileView gi) } : Session).Topped w :=
        ⟨ht₃.widget, ht₃.unowned, ht₃.focused⟩
      exact hlisten.pushPage id hview

/-! ## Building -/

theorem builds (ht : s.Topped w) (hs : s.WellFormed) (hb : Builds s t) : t.Topped w := by
  obtain ⟨w, hw⟩ := Screen.isLive_iff.mp hs.screen.screen_live
  obtain ⟨new, hnew, -, hbuilt⟩ := hb.controls
  refine ⟨?_, fun c hc ho => ?_, ?_⟩
  · rw [hb.screen.widget _ w hw, ← hw, ht.widget, hb.rest]
  · rw [hnew] at hc
    rcases List.mem_append.mp hc with hc | hc
    · exact ht.unowned c hc ho
    · rw [(hbuilt c hc).fresh _ ho] at hw
      cases hw
  · rw [hb.rest]
    exact ht.focused

theorem prepare (ht : s.Topped w) (hs : s.WellFormed) (markup : String) :
    (s.prepare markup).Topped w := by
  obtain ⟨head, store, sheet, u, v, -, hl, hkeep, hb, he⟩ :=
    prepare_keeps (P := fun s t => s.Topped w → t.Topped w) (fun _ ht => ht)
      (fun _ _ _ h₁ h₂ ht => h₂ (h₁ ht)) (fun _ e hs ht => ht.renderGroup hs e)
      (fun _ e hs ht => ht.renderPage hs e) hs markup
  have hv := (hkeep ⟨ht.widget, ht.unowned, ht.focused⟩).builds hl.wellFormed hb
  have hstack := ((hb.wellFormed hl.wellFormed).screen.extends_stack v.controls).2 Handle.screen
  rw [he]
  exact ⟨hstack.trans hv.widget, hv.unowned, hv.focused⟩

theorem showFirst (ht : s.Topped w) (hs : s.WellFormed) : s.showFirst.Topped w := by
  unfold Session.showFirst
  extract_lets first fallback
  have hfallback : fallback.Topped w := by
    unfold fallback
    cases first with
    | none => exact ht
    | some id => exact ht.showPage hs id
  split
  · exact hfallback
  · have hshow := ht.showPage hs s.head.defaultPage
    split
    · next t he =>
      rw [he] at hshow
      exact hshow
    · exact hfallback

theorem render (ht : s.Topped w) (hs : s.WellFormed) (markup : String) :
    (s.render markup).Topped w :=
  (ht.prepare hs markup).showFirst (hs.prepare markup)

/-! ## Clearing -/

theorem new (config : Config) : (Session.new config).Topped blankTop where
  widget := rfl
  unowned := fun _ hc => nomatch hc
  focused := fun he => nomatch he

theorem clear (ht : s.Topped w) (hs : s.WellFormed) : s.clear.Topped w where
  widget := Eq.trans (hs.screen.clean_sameTop Handle.screen) ht.widget
  unowned := fun _ hc => nomatch hc
  focused := fun he => nomatch he

theorem init (ht : s.Topped w) (hs : s.WellFormed) : s.init.Topped w where
  widget := (ht.clear hs).widget
  unowned := (ht.clear hs).unowned
  focused := (ht.clear hs).focused

/-! ## Runs -/

theorem perform (ht : s.Topped w) (hs : s.WellFormed) {o : Operation} (ho : o.sparesTop = true) :
    (o.perform s).Topped w := by
  cases o with
  | render markup => exact ht.render hs markup
  | clear => exact ht.clear hs
  | init => exact ht.init hs
  | setAppDir _ => exact ⟨ht.widget, ht.unowned, ht.focused⟩
  | unhost => exact ⟨ht.widget, ht.unowned, ht.focused⟩
  | takeSignals => exact ⟨ht.widget, ht.unowned, ht.focused⟩
  | assign name value => exact ht.assign hs name value
  | assignSilently name value => exact ht.assignSilently name value
  | accept name value => exact ht.accept hs name value
  | sync => exact ht.sync
  | write _ _ _ => exact ht.withStore _
  | reset _ => exact ht.withStore _
  | resetAll => exact ht.withStore _
  | setText id text => exact ht.setText hs id text
  | setSwitch id _ => exact ht.onControl id fun c hc => Screen.sameTop_modify (ht.obj_ne hc) _
  | setSlider id _ => exact ht.onControl id fun c hc => Screen.sameTop_modify (ht.obj_ne hc) _
  | setInput id _ => exact ht.onControl id fun c hc => Screen.sameTop_modify (ht.obj_ne hc) _
  | setAttr id attr value => exact ht.setAttr id attr value
  | draw id f => exact ht.onCanvas id f
  | callOnclick id => exact ht.callOnclick id
  | call name => exact ht.call name
  | beginInput id => exact ht.beginInput hs id
  | showPage path => exact ht.showPage hs path
  | navigate href => exact ht.navigate hs href
  | edit h e =>
    have hh : h ≠ Handle.screen := of_decide_eq_true ho
    cases e <;> exact ht.redraw (Screen.sameTop_modify hh _)
  | point _ => exact ⟨ht.widget, ht.unowned, ht.focused⟩
  | advance _ => exact ⟨ht.widget, ht.unowned, ht.focused⟩
  | post _ _ => exact ⟨ht.widget, ht.unowned, ht.focused⟩
  | handle h kind i =>
    simp only [Operation.perform]
    split
    · next l hl =>
      exact ht.handle hs kind fun he => hs.listener_kind (he ▸ List.mem_of_getElem? hl)
    · exact ht
  | dispatch h kind => exact ht.dispatch hs h kind
  | process => exact ht.process hs

theorem after (ht : s.Topped w) (hs : s.WellFormed) {os : List Operation}
    (ho : ∀ o ∈ os, o.sparesTop = true) : (s.after os).Topped w := by
  induction os generalizing s with
  | nil => exact ht
  | cons o os ih =>
    exact ih (ht.perform hs (ho o List.mem_cons_self)) (hs.perform o)
      fun o' hm => ho o' (List.mem_cons_of_mem o hm)

/-! ## Edits of the screen -/

theorem edit (ht : s.Topped w) (e : Edit) :
    ∃ f : Widget → Widget, (∀ v, (f v).hidden = v.hidden) ∧
      (s.mapScreen (e.perform Handle.screen)).Topped fun size => (w size).map f := by
  have hmodify : ∃ f : Widget → Widget, (∀ v, (f v).hidden = v.hidden) ∧
      e.perform Handle.screen s.screen = s.screen.modify Handle.screen f := by
    cases e <;> exact ⟨_, fun v => by rfl, rfl⟩
  obtain ⟨f, hf, he⟩ := hmodify
  refine ⟨f, hf, ?_, ht.unowned, ht.focused⟩
  show (e.perform Handle.screen s.screen).widget? Handle.screen = _
  rw [he, Screen.widget?_modify, if_pos rfl, ht.widget]
  rfl

/-- Whatever a user does to the screen itself, it is not hidden. -/
theorem perform_lit (ht : s.Topped w) (hs : s.WellFormed)
    (hw : ∀ size v, w size = some v → v.hidden = false) (o : Operation) :
    ∃ w', (∀ size v, w' size = some v → v.hidden = false) ∧ (o.perform s).Topped w' := by
  cases ho : o.sparesTop with
  | true => exact ⟨w, hw, ht.perform hs ho⟩
  | false =>
    cases o with
    | edit h e =>
      obtain rfl : h = Handle.screen := by simpa [Operation.sparesTop] using ho
      obtain ⟨f, hf, he⟩ := ht.edit e
      refine ⟨_, fun size v hv => ?_, he⟩
      obtain ⟨v', hv', rfl⟩ := Option.map_eq_some_iff.mp hv
      rw [hf]
      exact hw size v' hv'
    | _ => cases ho

theorem after_lit (ht : s.Topped w) (hs : s.WellFormed)
    (hw : ∀ size v, w size = some v → v.hidden = false) (os : List Operation) :
    (s.after os).screen.isHidden Handle.screen = false := by
  induction os generalizing s w with
  | nil =>
    show s.screen.isHidden Handle.screen = false
    rw [Screen.isHidden, ht.widget]
    cases hv : w s.config.screen with
    | none => rfl
    | some v => exact hw _ v hv
  | cons o os ih =>
    obtain ⟨w', hw', ht'⟩ := ht.perform_lit hs hw o
    exact ih ht' (hs.perform o) hw'

end Topped

/-- The screen itself is never hidden. -/
theorem top_not_hidden (config : Config) (os : List Operation) :
    ((Session.new config).after os).screen.isHidden Handle.screen = false := by
  refine (Topped.new config).after_lit (wellFormed_new config) (fun size v hv => ?_) os
  cases hv
  rfl

end Session
end ScreenMarkup
