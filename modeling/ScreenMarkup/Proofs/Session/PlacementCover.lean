import ScreenMarkup.Proofs.Session.PlacementBuilding

/-!
# Nothing that is built is left out

The listing of elements is complete: every widget of a styled kind that their
builders make belongs to an element that is listed. Images, canvases and tabs
make none.
-/

set_option autoImplicit false

namespace ScreenMarkup.Session

open Placed (Covers)

variable {s t : Session} {h parent : Handle} {c : Control} {e : Element}

/-! ## What is not listed -/

theorem register_carries (s : Session) (c : Control) :
    s.screen.Carries (s.register c).2.screen := by
  by_cases he : c.id = ""
  · rw [register, if_pos he]
    exact Screen.Carries.refl _
  · obtain ⟨z, waiting, hr⟩ := s.register_eq c he
    rw [hr]
    exact (Placed.veiled_settles s c).carries

theorem registerWith_carries (s : Session) (c : Control) (h : Handle) (kinds : List EventKind)
    (listener : Nat → Listener) : s.screen.Carries (s.registerWith c h kinds listener).screen := by
  have hr := s.register_carries c
  unfold registerWith
  split
  · next i u he =>
    rw [he] at hr
    exact hr
  · next u he =>
    rw [he] at hr
    exact hr

theorem buildImage_carries (s : Session) (e : Element) (parent : Handle) :
    s.screen.Carries (s.buildImage e parent).screen := by
  unfold buildImage
  extract_lets a onclick isCentered
  split
  next h s₁ hc =>
  extract_lets path s₂ geometry i s₃ y s₄ s₅ s₆
  have hmade : Carries s s₂ := (create_carries rfl hc).trans <|
    (mapScreen_carries s₁ (Screen.carries_configure _ h _)).trans (applyRules_carries _ h _ a)
  have hplaced : Carries s₂ s₃ := mapScreen_carries s₂
    ((Screen.carries_styling h).applyInline (Screen.carries_styling h) s₂.screen i)
  have hcentered : Carries s₃ s₄ := by
    unfold s₄
    split
    · exact mapScreen_carries s₃ (Screen.carries_align _ h _ _)
    · exact Carries.refl s₃
  have hall : Carries s s₅ :=
    (hmade.trans hplaced).trans (hcentered.trans (hideForGood_settles s₄ h a).carries)
  split
  · split
    next b s₇ hw =>
    exact (hall.trans (withId_carries hw)).screen.trans (register_carries s₇ _)
  · split
    next b s₇ hw =>
    have hclick : Carries s₅ s₆ := mapScreen_carries s₅ (Screen.carries_configure _ h _)
    exact ((hall.trans hclick).trans (withId_carries hw)).screen.trans
      (registerWith_carries s₇ _ h _ _)

theorem addsNone_delete {v : Screen} (hv : v.Sound) (h : Handle) : v.AddsNone (v.delete h) := by
  rcases Screen.delete_eq_or v h with he | ⟨hh, b, hb⟩
  · rw [he]
    exact fun _ _ hk _ => hk
  · intro k kind hk _
    rw [Screen.kind?, hv.widget?_delete hh hb] at hk
    split at hk
    · cases hk
    · exact hk

theorem buildCanvas_addsNone (hs : s.screen.Sound) (e : Element) (parent : Handle) :
    s.screen.AddsNone (s.buildCanvas e parent).screen := by
  unfold buildCanvas
  extract_lets actions w n x y background isTouched
  split
  next a s₁ hw =>
  split
  next h s₂ hc =>
  extract_lets s₃ s₄ drawn
  have hmade : Carries s s₃ := (withId_carries hw).trans <| (create_carries rfl hc).trans <|
    mapScreen_carries s₂ (((Screen.carries_styling h).setPos _ _ _).trans
      ((Screen.carries_styling h).setSize _ _ _))
  split
  · exact (hmade.screen.addsNone hs).trans (addsNone_delete (hmade.screen.sound hs) h)
  · next canvas hcanvas =>
    extract_lets c
    have hdrawn : Carries s₃ s₄ := (mapScreen_carries s₃ (f := (·.invalidate h))
      (Screen.carries_modify fun _ => rfl)).trans (hideForGood_settles _ h a).carries
    have hall := hmade.trans hdrawn
    split
    · have hclick : Carries s₄ (s₄.mapScreen (·.configure h (.clickable true))) :=
        mapScreen_carries s₄ (Screen.carries_configure _ h _)
      exact ((hall.trans hclick).screen.trans (registerWith_carries _ c h _ _)).addsNone hs
    · exact (hall.screen.trans (register_carries s₄ c)).addsNone hs

theorem createTabView_carries (he : s.createTabView e parent = (h, t)) : Carries s t := by
  unfold createTabView at he
  extract_lets x y w n background at he
  split at he
  next k s₁ hc =>
  cases he
  refine (create_carries rfl hc).trans (mapScreen_carries s₁ ?_)
  extract_lets v₁ v₂ v₃ v₄
  have hbar : s₁.screen.Carries v₁ := Screen.carries_configure s₁.screen h _
  have hplace : v₁.Carries v₂ := ((Screen.carries_styling h).setPos v₁ x y).ite
  have hsize : v₂.Carries v₃ := ((Screen.carries_styling h).setSize v₂ _ _).ite
  have hcolor : v₃.Carries v₄ := (Screen.carries_styling h).applyStyles v₃ _
  refine (hbar.trans hplace).trans ((hsize.trans hcolor).trans ?_)
  split
  · exact Screen.Carries.refl v₄
  · exact (Screen.carries_styling h).applyStyle v₄ _

theorem createTab_carries (he : s.createTab e parent = (h, t)) : Carries s t := by
  unfold createTab at he
  extract_lets title at he
  split at he
  next k s₁ hc =>
  cases he
  exact (create_carries rfl hc).trans <| mapScreen_carries s₁ <|
    (Screen.carries_setText s₁.screen h title).trans
      ((Screen.carries_styling h).applyStyles (s₁.screen.setText h title) _)

theorem finishTabs_carries (s : Session) (e : Element) (view : Handle) :
    s.screen.Carries (s.finishTabs e view).screen := by
  unfold finishTabs
  extract_lets a
  have hhidden := (hideForGood_settles s view a).carries.screen
  exact hhidden.trans (register_carries (s.hideForGood view a) _)

/-! ## What is listed -/

theorem covers_of_sublist {ps qs : List Placed} {v w : Screen} (hc : Covers ps v w)
    (hp : ps ⊆ qs) : Covers qs v w := by
  intro h k hk hn
  exact (hc h k hk hn).imp_right fun ⟨p, hmem, ho⟩ => ⟨p, hp hmem, ho⟩

theorem buildLeaf_covers (hs : s.WellFormed) (hp : s.Hosts parent) (kind : ControlKind)
    (e : Element) :
    Covers [s.placeOf kind e parent] s.screen (s.buildLeaf kind e parent).screen := by
  have hplain {t : Session} (ha : s.screen.AddsNone t.screen) :
      Covers [s.placeOf kind e parent] s.screen t.screen :=
    covers_of_sublist (Covers.none ha) (List.nil_subset _)
  cases hk : kind.isStyled with
  | true => exact (buildLeaf_joins hs hp hk e).covers
  | false =>
    cases kind with
    | image => exact hplain ((buildImage_carries s e parent).addsNone hs.screen.toSound)
    | canvas => exact hplain (buildCanvas_addsNone hs.screen.toSound e parent)
    | tabs => exact hplain fun _ _ hk _ => hk
    | page => exact hplain fun _ _ hk _ => hk
    | _ => cases hk

mutual
theorem buildWidget_covers (e : Element) {s : Session} {parent : Handle} (hs : s.WellFormed)
    (hp : s.Hosts parent) :
    Covers (placedIn parent e s) s.screen (buildWidget parent e s).screen := by
  obtain ⟨tag, attrs, text, children, inner⟩ := e
  rcases buildWidget_cases parent tag attrs text children inner s with
    ⟨hplaced, hbuilt⟩ | ⟨view, s₁, hv, hplaced, hbuilt⟩ | ⟨kind, hplaced, hbuilt⟩
  · rw [hplaced, hbuilt]
    exact Covers.none fun _ _ hk _ => hk
  · rw [hplaced, hbuilt]
    have hd := createTabView_draft hs hp.holds hv
    have hs₁ := hd.builds.wellFormed hs
    have hview := hd.hosts rfl (by decide)
    have htabs := (buildTabs_builds children hs₁ hview.holds).wellFormed hs₁
    have hbefore := Covers.none ((createTabView_carries hv).screen.addsNone hs.screen.toSound)
    exact (hbefore.trans (buildTabs_covers children hs₁ hview)).more
      ((finishTabs_carries _ _ view).addsNone htabs.screen.toSound)
  · rw [hplaced, hbuilt]
    exact buildLeaf_covers hs hp kind _
theorem buildAll_covers (es : List Element) {s : Session} {parent : Handle} (hs : s.WellFormed)
    (hp : s.Hosts parent) :
    Covers (placedInAll parent es s) s.screen (buildAll parent es s).screen := by
  cases es with
  | nil =>
    rw [placedInAll, buildAll]
    exact Covers.none fun _ _ hk _ => hk
  | cons e es =>
    rw [placedInAll, buildAll]
    have hb := buildWidget_builds e hs hp.holds
    exact (buildWidget_covers e hs hp).trans
      (buildAll_covers es (hb.wellFormed hs) (hb.hosts hp))
theorem buildTabs_covers (es : List Element) {s : Session} {view : Handle} (hs : s.WellFormed)
    (hp : s.Hosts view) :
    Covers (placedInTabs view es s) s.screen (buildTabs view es s).screen := by
  cases es with
  | nil =>
    rw [placedInTabs, buildTabs]
    exact Covers.none fun _ _ hk _ => hk
  | cons e es =>
    obtain ⟨tag, attrs, text, children, inner⟩ := e
    rw [placedInTabs, buildTabs]
    by_cases htag : tag = "tab"
    · rw [if_pos htag, if_pos htag]
      generalize hv : s.createTab ⟨tag, attrs, text, children, inner⟩ view = made
      obtain ⟨tab, s₁⟩ := made
      obtain ⟨C, hC, hd⟩ := createTab_draft hs hp.holds hv
      have hs₁ := hd.builds.wellFormed hs
      have htab := hd.hosts (by rw [hC]; rfl) (by rw [hC]; decide)
      have hb := buildAll_builds children hs₁ htab.holds
      have hbefore := Covers.none ((createTab_carries hv).screen.addsNone hs.screen.toSound)
      exact (hbefore.trans (buildAll_covers children hs₁ htab)).trans
        (buildTabs_covers es (hb.wellFormed hs₁) (hb.hosts (hd.builds.hosts hp)))
    · rw [if_neg htag, if_neg htag]
      exact buildTabs_covers es hs hp
end

end ScreenMarkup.Session
