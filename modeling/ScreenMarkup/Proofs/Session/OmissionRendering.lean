import ScreenMarkup.Proofs.Session.Grouping
import ScreenMarkup.Proofs.Session.Omission

/-!
# Rendering without what is refused

A document is laid out alike without its refused canvases. Its contents are
built side by side then, and so the renderings differ in handles only.
-/

set_option autoImplicit false

namespace ScreenMarkup.Session

variable {p : Element → Prop} {s t : Session} {e e' : Element} {es es' : List Element}

/-! ## Laying out -/

/-- The same place with less to be built in it. -/
structure Content.Sheds (p : Element → Prop) (c d : Content) : Prop where
  parent : d.parent = c.parent
  element : c.element.Sheds p .content d.element

/-- Two steps lead to the same session, with corresponding contents. -/
structure LaysAlike (p : Element → Prop) (a b : Session × List Content) : Prop where
  session : b.1 = a.1
  contents : List.Forall₂ (Content.Sheds p) a.2 b.2

theorem LaysAlike.none (s : Session) : LaysAlike p (s, []) (s, []) := ⟨rfl, .nil⟩

theorem renderPage_sheds (s : Session) (h : e.Sheds p .content e') :
    LaysAlike p (s.renderPage e) (s.renderPage e') := by
  obtain ⟨cs, hcs, rfl⟩ := h
  have hid : ({ e with children := cs } : Element).attr "id" = e.attr "id" := rfl
  unfold renderPage
  simp only [hid]
  split
  · exact LaysAlike.none s
  · exact ⟨rfl, .cons ⟨rfl, cs, hcs, rfl⟩ .nil⟩

theorem renderTile_sheds (gi : Nat) (group : String) (s : Session) (h : e.Sheds p .content e') :
    LaysAlike p (renderTile gi group s e) (renderTile gi group s e') := by
  obtain ⟨cs, hcs, rfl⟩ := h
  have hid : ({ e with children := cs } : Element).attr "id" = e.attr "id" := rfl
  unfold renderTile
  simp only [hid]
  split
  · exact LaysAlike.none s
  · exact ⟨rfl, .cons ⟨rfl, cs, hcs, rfl⟩ .nil⟩

theorem collect_sheds {R : Element → Element → Prop}
    {step : Session → Element → Session × List Content}
    (hstep : ∀ s {e e'}, R e e' → LaysAlike p (step s e) (step s e'))
    (h : List.Forall₂ R es es') (s : Session) :
    LaysAlike p (collect step es s) (collect step es' s) := by
  induction h generalizing s with
  | nil => exact LaysAlike.none s
  | @cons e e' es es' he _ ih =>
    have hfirst := hstep s he
    have hrest := ih (step s e).1
    refine ⟨?_, List.rel_append hfirst.contents ?_⟩
    · show (collect step es' (step s e').1).1 = _
      rw [hfirst.session]
      exact hrest.session
    · rw [hfirst.session]
      exact hrest.contents

theorem tilePages_sheds (h : e.Sheds p .pages e') (limit : Nat) :
    List.Forall₂ (Element.Sheds p .content) (tilePages e limit) (tilePages e' limit) := by
  refine List.forall₂_take limit (List.rel_filter (fun c d hcd => ?_) (Layout.sheds_findAll h))
  show decide (c.attr "id" ≠ "") = true ↔ decide (d.attr "id" ≠ "") = true
  rw [hcd.attr]

theorem LaysAlike.closeGroup {a b : Session × List Content} (h : LaysAlike p a b) (id : String)
    (gi : Nat) : LaysAlike p (closeGroup id gi a) (closeGroup id gi b) := by
  obtain ⟨s, cs⟩ := a
  obtain ⟨t, ds⟩ := b
  obtain ⟨rfl, hcontents⟩ := h
  unfold Session.closeGroup
  dsimp only
  split <;> exact ⟨rfl, hcontents⟩

theorem renderGroup_sheds (s : Session) (h : e.Sheds p .pages e') :
    LaysAlike p (s.renderGroup e) (s.renderGroup e') := by
  have htiles (gi : Nat) (s : Session) (limit : Nat) :=
    collect_sheds (R := Element.Sheds p .content)
      (fun s {_ _} h => renderTile_sheds gi (e.attr "id") s h) (tilePages_sheds h limit) s
  rw [renderGroup_eq, renderGroup_eq]
  simp only [h.attr]
  split
  · exact LaysAlike.none s
  · exact (htiles _ _ _).closeGroup _ _

/-! ## Passes without pages -/

/-- There are neither pages nor groups. -/
def Bare (s : Session) : Prop := (s.nav.pages.isEmpty && s.nav.groups.isEmpty) = true

instance (s : Session) : Decidable s.Bare := inferInstanceAs (Decidable (_ = true))

theorem bare_iff : s.Bare ↔ s.nav.pages = [] ∧ s.nav.groups = [] := by simp [Bare]

/-- A pass that leads to no page and no group has made none: it was idle at each element. -/
theorem collect_bare {step : Session → Element → Session × List Content}
    {I : Session → Element → Prop} (hidle : ∀ s e, I s e → step s e = (s, []))
    (hstep : ∀ s e, s.WellFormed → (step s e).1.WellFormed ∧ (I s e ∨ ¬ (step s e).1.Bare))
    (hs : s.WellFormed) (hb : (collect step es s).1.Bare) : s.Bare ∧ ∀ e ∈ es, I s e := by
  induction es generalizing s with
  | nil => exact ⟨hb, fun _ he => absurd he List.not_mem_nil⟩
  | cons e es ih =>
    obtain ⟨hwf, hor⟩ := hstep s e hs
    obtain ⟨hfirst, hrest⟩ := ih hwf hb
    have he : I s e := hor.resolve_right fun hn => hn hfirst
    rw [hidle s e he] at hfirst hrest
    refine ⟨hfirst, fun c hc => ?_⟩
    rcases List.mem_cons.mp hc with rfl | hc
    · exact he
    · exact hrest c hc

theorem collect_idle {step : Session → Element → Session × List Content}
    (h : ∀ e ∈ es, step s e = (s, [])) : collect step es s = (s, []) := by
  induction es with
  | nil => rfl
  | cons e es ih =>
    rw [collect, h e List.mem_cons_self]
    dsimp only
    rw [ih fun c hc => h c (List.mem_cons_of_mem e hc)]
    rfl

theorem renderGroup_nameless (s : Session) {group : Element} (hid : group.attr "id" = "") :
    s.renderGroup group = (s, []) := by
  rw [renderGroup_eq, if_pos hid]

/-- Only a group without an id is left out. -/
theorem renderGroup_idle (hs : s.WellFormed) (group : Element) :
    (s.renderGroup group).1.WellFormed ∧
      (group.attr "id" = "" ∨ ¬ (s.renderGroup group).1.Bare) := by
  refine ⟨(renderGroup_places hs group).1.wellFormed, ?_⟩
  rcases renderGroup_groups hs group with ⟨hid, -⟩ | ⟨g, hg⟩
  · exact .inl hid
  · refine .inr fun hb => ?_
    have hnone := (bare_iff.mp hb).2
    rw [hg.nav] at hnone
    exact List.append_ne_nil_of_right_ne_nil _ (List.cons_ne_nil g []) hnone

/-- A page is left out that has no id or no room. -/
def NoRoom (s : Session) (page : Element) : Prop :=
  page.attr "id" = "" ∨ s.config.maxPages ≤ s.nav.pages.length

theorem renderPage_noRoom {page : Element} (hn : s.NoRoom page) : s.renderPage page = (s, []) :=
  if_pos hn

theorem renderPage_idle (hs : s.WellFormed) (page : Element) :
    (s.renderPage page).1.WellFormed ∧ (s.NoRoom page ∨ ¬ (s.renderPage page).1.Bare) := by
  refine ⟨(renderPage_places hs page).1.wellFormed, ?_⟩
  by_cases hn : s.NoRoom page
  · exact .inl hn
  · refine .inr fun hb => ?_
    have hcontents : (s.renderPage page).2 ≠ [] := by
      rw [show s.renderPage page = _ from if_neg hn]
      exact List.cons_ne_nil _ _
    rcases renderPage_pages hs page with he | ⟨h, hp⟩
    · exact hcontents (congrArg Prod.snd he)
    · have hnone := (bare_iff.mp hb).1
      rw [hp.nav] at hnone
      exact List.append_ne_nil_of_right_ne_nil _ (List.cons_ne_nil _ []) hnone

/-! ## Documents -/

/-- The element that describes the app. -/
def appOf (doc : Element) : Element := (doc.find? "app").getD doc

/-- What is built on the screen itself, if there are no pages. -/
def rootOf (doc : Element) : Element := ((appOf doc).find? "ui").getD (appOf doc)

/-- The pages of a layout with what is to be built on them, or else on the screen. -/
def arrange (s : Session) (layout : Layout) (root : Element) : Session × List Content :=
  let (s, tiles) := collect renderGroup layout.groups s
  let (s, pages) := collect renderPage layout.pages s
  (s,
    if s.nav.pages.isEmpty && s.nav.groups.isEmpty then [⟨root, Handle.screen⟩]
    else tiles ++ pages)

/-- The pages of a parsed document with what is to be built on them. -/
def layOutDocument (s : Session) (doc : Element) : Session × List Content :=
  let (head, store, sheet) := Head.read (appOf doc) s.store {} s.config.iconDir
  ({ s with head := head, store := store, sheet := sheet }).arrange
    (Layout.ofElements doc.children) (rootOf doc)

theorem layOut_eq (s : Session) (markup : String) :
    s.layOut markup = s.layOutDocument (Markup.parse markup) := rfl

/-- Puts a parsed document on the screen. -/
def renderDocument (s : Session) (doc : Element) : Session :=
  let u := buildContents (s.layOutDocument doc).2 (s.layOutDocument doc).1
  ({ u with screen := u.screen.stack u.controls, pendingZ := [] }).showFirst

theorem render_eq_renderDocument (s : Session) (markup : String) :
    s.render markup = s.renderDocument (Markup.parse markup) := rfl

/-- `doc'` is `doc` without some elements among those that a rendering builds as widgets: those on
the pages of the document, or those in its app if it leads to no page. -/
def Leaves (s : Session) (p : Element → Prop) (doc doc' : Element) : Prop :=
  ((s.layOutDocument doc).1.Bare ∧
    doc.AtFirst "app" (Element.AtFirst "ui" (Element.Sheds p .content)) doc') ∨
  (¬ (s.layOutDocument doc).1.Bare ∧ doc.Sheds p .searched doc')

/-- Pages with less on them are laid out as before. -/
theorem arrange_sheds {a b : Layout} (h : Layout.Sheds p a b) {root : Element}
    (hb : ¬ (s.arrange a root).1.Bare) (root' : Element) :
    LaysAlike p (s.arrange a root) (s.arrange b root') := by
  have hgroups := collect_sheds (R := Element.Sheds p .pages)
    (fun s {_ _} h => renderGroup_sheds s h) h.groups s
  have hpages := collect_sheds (R := Element.Sheds p .content)
    (fun s {_ _} h => renderPage_sheds s h) h.pages (collect renderGroup a.groups s).1
  have hsession : (s.arrange b root').1 = (s.arrange a root).1 := by
    show (collect renderPage b.pages (collect renderGroup b.groups s).1).1 = _
    rw [hgroups.session]
    exact hpages.session
  have hcontents (layout : Layout) (root : Element) (hb : ¬ (s.arrange layout root).1.Bare) :
      (s.arrange layout root).2 = (collect renderGroup layout.groups s).2 ++
        (collect renderPage layout.pages (collect renderGroup layout.groups s).1).2 := if_neg hb
  refine ⟨hsession, ?_⟩
  rw [hcontents a root hb, hcontents b root' (hsession ▸ hb), hgroups.session]
  exact List.rel_append hgroups.contents hpages.contents

/-- A layout without pages and groups that could be made leaves the screen to the root. -/
theorem arrange_idle (hb : s.Bare) {layout : Layout}
    (hgroups : ∀ g ∈ layout.groups, g.attr "id" = "") (hpages : ∀ e ∈ layout.pages, s.NoRoom e)
    (root : Element) : s.arrange layout root = (s, [⟨root, Handle.screen⟩]) := by
  have hfirst := collect_idle fun g hg => renderGroup_nameless s (hgroups g hg)
  have hsecond := collect_idle fun e he => renderPage_noRoom (hpages e he)
  unfold arrange
  rw [hfirst]
  dsimp only
  rw [hsecond]
  exact Prod.ext rfl (if_pos hb)

theorem arrange_bare (hs : s.WellFormed) {layout : Layout} {root : Element}
    (hb : (s.arrange layout root).1.Bare) :
    s.Bare ∧ (∀ g ∈ layout.groups, g.attr "id" = "") ∧ ∀ e ∈ layout.pages, s.NoRoom e := by
  have hwf : (collect renderGroup layout.groups s).1.WellFormed :=
    (collect_places (P := fun _ _ => True) (fun _ => trivial) (fun _ _ _ _ _ => trivial)
      (fun s e hs => ⟨renderGroup_places hs e, trivial⟩) layout.groups hs).1.1.wellFormed
  -- backwards: no page was made after the groups, and so there was no group either
  obtain ⟨hmiddle, hpages⟩ := collect_bare (I := NoRoom)
    (fun s e hn => renderPage_noRoom hn) (fun s e hs => renderPage_idle hs e) hwf hb
  obtain ⟨hfirst, hgroups⟩ := collect_bare (I := fun _ g => g.attr "id" = "")
    (fun s e hid => renderGroup_nameless s hid) (fun s e hs => renderGroup_idle hs e) hs hmiddle
  rw [collect_idle fun g hg => renderGroup_nameless s (hgroups g hg)] at hpages
  exact ⟨hfirst, hgroups, hpages⟩

theorem arrange_shrinks (hs : s.WellFormed) {a b : Layout} (h : Layout.Shrinks a b)
    {root root' : Element} (hb : (s.arrange a root).1.Bare) (hr : root.Sheds p .content root') :
    LaysAlike p (s.arrange a root) (s.arrange b root') := by
  obtain ⟨hbare, hgroups, hpages⟩ := arrange_bare hs hb
  have hattr {e e' : Element} (ha : e'.attrs = e.attrs) : e'.attr "id" = e.attr "id" := by
    simp only [Element.attr, Element.attrD, Element.attr?, ha]
  rw [arrange_idle hbare hgroups hpages, arrange_idle hbare (fun g hg => ?_) fun e he => ?_]
  · exact ⟨rfl, .cons ⟨rfl, hr⟩ .nil⟩
  · obtain ⟨k, hk, ha⟩ := h.groups g hg
    rw [hattr ha]
    exact hgroups k hk
  · obtain ⟨k, hk, ha⟩ := h.pages e he
    rw [NoRoom, hattr ha]
    exact hpages k hk

/-- The document is laid out as the one without these elements. -/
theorem layOutDocument_leaves (hs : s.WellFormed) {doc doc' : Element}
    (hp : ∀ e, p e → e.tag = "canvas") (h : s.Leaves p doc doc') :
    LaysAlike p (s.layOutDocument doc) (s.layOutDocument doc') := by
  have hread (happ : (appOf doc).Sheds p .anything (appOf doc')) :
      Head.read (appOf doc') s.store {} s.config.iconDir =
        Head.read (appOf doc) s.store {} s.config.iconDir := Head.read_sheds happ hp _ _ _
  rcases h with ⟨hb, h⟩ | ⟨hb, h⟩
  · -- with a canvas may go the pages in it, but none of them could be made
    have hroot (e e' : Element) (h : e.AtFirst "ui" (Element.Sheds p .content) e') :
        e.Sheds p .anything e' := h.sheds fun _ _ hc => hc.widen
    have happ := h.found hroot (Head.tag_ne hp (by decide))
    obtain ⟨cs, hcs, rfl⟩ := h.sheds hroot
    unfold layOutDocument at hb ⊢
    rw [hread (hroot _ _ happ)]
    exact arrange_shrinks (hs.readHead _ _ _) (Layout.shrinks_ofElements hcs) hb
      (happ.found (fun _ _ hc => hc.widen) (Head.tag_ne hp (by decide)))
  · obtain ⟨cs, hcs, rfl⟩ := h
    have happ : (appOf doc).Sheds p .anything (appOf { doc with children := cs }) :=
      Element.Sheds.found ⟨cs, hcs.widen, rfl⟩ (Head.tag_ne hp (by decide))
    unfold layOutDocument at hb ⊢
    rw [hread happ]
    exact arrange_sheds (Layout.sheds_ofElements hcs) hb _

/-! ## Building -/

variable {c : Config} {ρ σ : Renaming} {cs ds : List Content}

theorem Content.map_rename_congr (h : ∀ c ∈ cs, σ c.parent = ρ c.parent) :
    cs.map (Content.rename ρ) = cs.map (Content.rename σ) :=
  List.map_congr_left fun c hc => by rw [Content.rename, Content.rename, h c hc]

theorem Content.map_rename_identity (cs : List Content) :
    cs.map (Content.rename Renaming.identity) = cs := List.map_id cs

/-- Contents are built in a renamed session, and without what is refused. -/
theorem follows_contents (hp : ∀ e, p e → ∀ u : Session, u.config = c → u.Refuses e)
    (h : List.Forall₂ (Content.Sheds p) cs ds) (hc : Copies ρ t s)
    (hs : ∀ a ∈ cs, s.Prepared c (ρ a.parent)) :
    Follows ρ t (buildContents ds t) (buildContents (cs.map (Content.rename ρ)) s) := by
  induction h generalizing ρ t s with
  | nil => exact Follows.refl hc
  | @cons a d cs ds had _ ih =>
    obtain ⟨es, hes, hd⟩ := had.element
    have ha := hs a List.mem_cons_self
    have hrest (b : Content) (hb : b ∈ cs) := hs b (List.mem_cons_of_mem a hb)
    have hfirst : Follows ρ t (buildAll d.parent d.element.children t)
        (buildAll (ρ a.parent) a.element.children s) := by
      rw [had.parent, hd]
      exact follows_build (l := .content) hes hp hc ha
    refine hfirst.trans fun σ hσ hsame => ?_
    have hparent (b : Content) (hb : b ∈ cs) : σ b.parent = ρ b.parent :=
      hsame b.parent ((hc.screen.isLive b.parent).symm.trans (hrest b hb).live)
    have hnext := ih hσ fun b hb =>
      hparent b hb ▸ (hrest b hb).buildAll ha.holds a.element.children
    rw [← Content.map_rename_congr hparent] at hnext
    exact hnext

theorem buildContents_spares (cs : List Content) (s : Session) :
    Spares s (buildContents cs s) := by
  induction cs generalizing s with
  | nil => exact Spares.refl s
  | cons a cs ih => exact (constructing_spares.buildAll a.parent _ s).trans (ih _)

theorem layOut_prepared (hs : s.Grounded) (markup : String) :
    ∀ a ∈ (s.layOut markup).2, (s.layOut markup).1.Prepared s.config a.parent := by
  obtain ⟨⟨head, store, sheet, hl⟩, hhosts⟩ := layOut_hosts hs.wellFormed markup
  exact fun a ha => ⟨hs.layOut markup, by rw [hl.rest], (hhosts a ha).holds⟩

theorem renderDocument_store (s : Session) (doc : Element) :
    (s.renderDocument doc).store = (s.layOutDocument doc).1.store :=
  (showFirst_rest _).1.trans (buildContents_spares _ _).store

/-- A rendering without elements that are refused differs in handles only. -/
theorem Grounded.copies_leaves (hs : s.Grounded) {markup : String} {doc' : Element}
    (h : s.Leaves s.Refuses (Markup.parse markup) doc') :
    ∃ σ, Copies σ (s.renderDocument doc') (s.render markup) := by
  obtain ⟨hsession, hcontents⟩ :=
    layOutDocument_leaves hs.wellFormed (fun e he => he.canvas) h
  rw [← layOut_eq] at hsession hcontents
  obtain ⟨σ, hσ, -⟩ := follows_contents (c := s.config) (fun e he u hu => he.congr hu) hcontents
    (hs.layOut markup).copies_self (layOut_prepared hs markup)
  rw [Content.map_rename_identity] at hσ
  refine ⟨σ, ?_⟩
  unfold renderDocument
  rw [hsession]
  exact hσ.stacked.showFirst

/-- A canvas that cannot be made leaves no trace: however a session was used before it was cleared,
a document with such canvases gives the same number of controls as the document without them, the
same variables, and the same tree, controls, listeners, pages and groups up to handles. -/
theorem refused_canvas_leaves_no_trace {c : Config} {os : List Operation}
    (ho : ∀ o ∈ os, o.sparesTop = true) {markup : String} {doc' : Element}
    (h : ((Session.new c).after os).clear.Leaves ((Session.new c).after os).clear.Refuses
      (Markup.parse markup) doc') :
    let s := ((Session.new c).after os).clear
    (s.render markup).controls.length = (s.renderDocument doc').controls.length ∧
      (s.render markup).store = (s.renderDocument doc').store ∧
      ∃ f, Alike f (s.renderDocument doc') (s.render markup) := by
  intro s
  have hs : s.Grounded := Grounded.clear ((wellFormed_new c).after os) ((Anchored.new c).after os)
    ((Topped.new c).after (wellFormed_new c) ho)
  obtain ⟨σ, hσ⟩ := hs.copies_leaves h
  refine ⟨?_, ?_, σ, hσ.alike_original⟩
  · rw [hσ.controls, List.length_map]
  · rw [render_eq_renderDocument, renderDocument_store, renderDocument_store]
    exact congrArg store
      (layOutDocument_leaves hs.wellFormed (fun e he => he.canvas) h).session.symm

/-- A canvas that is too large is skipped, and the small one after it is not. -/
theorem refused_canvas_leaves_no_trace_large :
    let s := ((Session.new { maxCanvasBytes := 1000 }).after []).clear
    let doc := Markup.parse "<canvas id='big' w='100' h='100'/><canvas id='small' w='10' h='10'/>"
    let doc' := { doc with children := doc.children.tail }
    s.Leaves s.Refuses doc doc' ∧
      (s.renderDocument doc').controls.map (·.id) = ["small"] ∧
      ∃ f, Alike f (s.renderDocument doc')
        (s.render "<canvas id='big' w='100' h='100'/><canvas id='small' w='10' h='10'/>") := by
  intro s doc doc'
  have hfirst : ∀ e ∈ doc.children.head?, e.tag = "canvas" ∧ e.attr "id" ≠ "" ∧
      s.across e "w" Canvas.defaultSide = 100 ∧ s.down e "h" Canvas.defaultSide = 100 := by
    decide +kernel
  obtain ⟨e, es, hes⟩ : ∃ e es, doc.children = e :: es :=
    List.exists_cons_of_ne_nil (by decide +kernel)
  have hlarge : s.Refuses e := by
    obtain ⟨htag, hid, hwidth, hheight⟩ := hfirst e (by rw [hes]; rfl)
    refine ⟨htag, hid, .canvasAllocation 40000, ?_⟩
    rw [hwidth, hheight, Canvas.make, if_pos (by decide +kernel)]
    rfl
  have homits : Omits s.Refuses .content doc.children doc.children.tail := by
    rw [hes]
    exact .leave rfl hlarge (Omits.refl _ es)
  have happ : doc.find? "app" = none := Option.isNone_iff_eq_none.mp (by decide +kernel)
  have hui : doc.find? "ui" = none := Option.isNone_iff_eq_none.mp (by decide +kernel)
  have hleaves : s.Leaves s.Refuses doc doc' :=
    .inl ⟨by decide +kernel, .self happ (.self hui ⟨_, homits, rfl⟩)⟩
  exact ⟨hleaves, by decide +kernel, (refused_canvas_leaves_no_trace (by decide) hleaves).2.2⟩
end ScreenMarkup.Session
