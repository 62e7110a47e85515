import ScreenMarkup.Proofs.Document.Ids
import ScreenMarkup.Proofs.Session.OmissionRendering

/-!
# Ids of controls

A control goes by the id that is written, by the group and the page of its
tile, or by a generated id with a number that is used once. A rendering takes
each written id from one element, and so its controls are told apart by their
ids if the document tells its elements apart.
-/

set_option autoImplicit false

namespace ScreenMarkup

namespace ControlKind

theorem ofTag?_ne_page {tag : String} {kind : ControlKind} (hk : ofTag? tag = some kind) :
    kind ≠ .page := by
  unfold ofTag? at hk
  split at hk <;> cases hk <;> decide

/-! ## Generated ids -/

/-- The generated id with a number. -/
def generated (kind : ControlKind) (n : Nat) : String := kind.idStem ++ Value.intText n

theorem toList_generated (kind : ControlKind) (n : Nat) :
    (kind.generated n).toList = kind.idStem.toList ++ Nat.toDigits 10 n := by
  rw [generated, String.toList_append, Value.toList_intText, if_neg (by omega), List.nil_append,
    Int.natAbs_natCast]

theorem head_generated (kind : ControlKind) (n : Nat) :
    (kind.generated n).toList.head? = some '_' := by
  rw [toList_generated]
  cases kind <;> rfl

theorem not_isDigit_of_mem_idStem (kind : ControlKind) :
    ∀ c ∈ kind.idStem.toList, (!c.isDigit) = true :=
  List.all_eq_true.mp (by cases kind <;> rfl)

/-- The stems have no digits, and so an id tells its number. -/
theorem generated_inj {j k : ControlKind} {m n : Nat} (h : j.generated m = k.generated n) :
    m = n := by
  have hstem (kind : ControlKind) (n : Nat) :
      (kind.generated n).toList.dropWhile (!·.isDigit) = Nat.toDigits 10 n := by
    rw [toList_generated, List.dropWhile_append_of_pos (not_isDigit_of_mem_idStem kind)]
    cases hd : Nat.toDigits 10 n with
    | nil => rfl
    | cons c ds =>
      have hc : c.isDigit = true :=
        Nat.isDigit_of_mem_toDigits (by decide) (by decide) (hd ▸ List.mem_cons_self)
      rw [List.dropWhile_cons_of_neg (by simp [hc])]
  have hdigits : Nat.toDigits 10 m = Nat.toDigits 10 n := by rw [← hstem j m, h, hstem]
  rw [← Numeric.digitsValue_toDigits m, hdigits, Numeric.digitsValue_toDigits]

end ControlKind

/-- Generated ids with numbers from `m` to before `n`, none of them twice. -/
structure Numbered (m n : Nat) (ids : List String) : Prop where
  le : m ≤ n
  nodup : ids.Nodup
  number : ∀ id ∈ ids, ∃ (kind : ControlKind) (i : Nat), id = kind.generated i ∧ m ≤ i ∧ i < n

namespace Numbered

variable {l m n : Nat} {as bs : List String}

theorem nil (n : Nat) : Numbered n n [] := ⟨le_rfl, List.nodup_nil, nofun⟩

theorem next (kind : ControlKind) (n : Nat) : Numbered n (n + 1) [kind.generated n] where
  le := n.le_succ
  nodup := List.nodup_singleton _
  number _ hid := ⟨kind, n, List.mem_singleton.mp hid, le_rfl, n.lt_succ_self⟩

/-- Later numbers are other ones. -/
theorem append (ha : Numbered l m as) (hb : Numbered m n bs) : Numbered l n (as ++ bs) where
  le := ha.le.trans hb.le
  nodup := by
    refine List.nodup_append.mpr ⟨ha.nodup, hb.nodup, fun a hin b hbn he => ?_⟩
    obtain ⟨j, i, rfl, -, hi⟩ := ha.number a hin
    obtain ⟨k, i', rfl, hi', -⟩ := hb.number b hbn
    have := ControlKind.generated_inj he
    omega
  number id hid := by
    rcases List.mem_append.mp hid with hid | hid
    · obtain ⟨k, i, he, hlow, hhigh⟩ := ha.number id hid
      exact ⟨k, i, he, hlow, hhigh.trans_le hb.le⟩
    · obtain ⟨k, i, he, hlow, hhigh⟩ := hb.number id hid
      exact ⟨k, i, he, ha.le.trans hlow, hhigh⟩

end Numbered

namespace Session

open Element (writtenIds widgetIds tileIds)

variable {s t u : Session} {ws xs : List String} {e : Element}

/-- The ids of the controls, in the order in which they were registered. -/
def ids (s : Session) : List String := s.controls.map (·.id)

/-- No control comes or goes, and no id is generated. -/
structure KeepsIds (s t : Session) : Prop where
  ids : t.ids = s.ids
  autoId : t.autoId = s.autoId

/-- The controls that `t` has beside those of `s` go by some of the ids `ws` or by generated
ones. -/
def Names (ws : List String) (s t : Session) : Prop :=
  ∃ made, Numbered s.autoId t.autoId made ∧ t.ids.Subperm (s.ids ++ (ws ++ made))

theorem shaping_keepsIds : Shaping (fun _ _ => True) KeepsIds where
  steps := ⟨fun _ => trivial, fun _ _ => trivial, fun _ _ _ _ => trivial⟩
  trans h₁ h₂ := ⟨h₂.ids.trans h₁.ids, h₂.autoId.trans h₁.autoId⟩
  redraw _ _ _ := ⟨rfl, rfl⟩
  create hc := by
    rw [create_eq] at hc
    cases hc
    exact ⟨rfl, rfl⟩
  discard hc _ _ := by
    rw [create_eq] at hc
    cases hc
    exact ⟨rfl, rfl⟩
  keepZIndex s h z := by
    unfold keepZIndex
    split
    · next i _ =>
      have hwiring := wiring_modify (f := ({ · with zIndex := z })) (fun _ => rfl) s.controls i
      have hids := congrArg (List.map Control.id) hwiring
      rw [List.map_map, List.map_map] at hids
      exact ⟨hids, rfl⟩
    · exact ⟨rfl, rfl⟩

namespace Names

theorem keep (h : KeepsIds s t) : Names [] s t :=
  ⟨[], h.autoId ▸ Numbered.nil s.autoId, by rw [h.ids, List.append_nil, List.append_nil]⟩

theorem mono (h : Names ws s t) (hw : ws.Subperm xs) : Names xs s t := by
  obtain ⟨made, hmade, hids⟩ := h
  have hnames := (List.subperm_append_left s.ids).mpr ((List.subperm_append_right made).mpr hw)
  exact ⟨made, hmade, hids.trans hnames⟩

theorem trans (h₁ : Names ws s t) (h₂ : Names xs t u) : Names (ws ++ xs) s u := by
  obtain ⟨as, ha, hs⟩ := h₁
  obtain ⟨bs, hb, ht⟩ := h₂
  have hboth := ht.trans ((List.subperm_append_right (xs ++ bs)).mpr hs)
  refine ⟨as ++ bs, ha.append hb, hboth.trans (List.Perm.subperm ?_)⟩
  simp only [List.append_assoc]
  exact ((List.perm_append_comm_assoc as xs bs).append_left ws).append_left s.ids

theorem keep_trans (h₁ : KeepsIds s t) (h₂ : Names ws t u) : Names ws s u :=
  (keep h₁).trans h₂

theorem trans_keep (h₁ : Names ws s t) (h₂ : KeepsIds t u) : Names ws s u := by
  have h := h₁.trans (keep h₂)
  rwa [List.append_nil] at h

end Names

/-! ## Building widgets -/

theorem register_ids (s : Session) (c : Control) :
    (s.register c).2.ids = s.ids ++ spelled c.id ∧ (s.register c).2.autoId = s.autoId := by
  unfold spelled
  by_cases hid : c.id = ""
  · rw [register, if_pos hid, if_pos hid, List.append_nil]
    exact ⟨rfl, rfl⟩
  · obtain ⟨z, waiting, he⟩ := s.register_eq c hid
    rw [he, if_neg hid]
    exact ⟨List.map_append, rfl⟩

theorem registerWith_ids (s : Session) (c : Control) (h : Handle) (events : List EventKind)
    (listener : Nat → Listener) :
    KeepsIds (s.register c).2 (s.registerWith c h events listener) := by
  unfold registerWith
  split
  · next i t he =>
    rw [he]
    exact ⟨rfl, rfl⟩
  · next t he =>
    rw [he]
    exact ⟨rfl, rfl⟩

theorem Names.register (s : Session) (c : Control) :
    Names (spelled c.id) s (s.register c).2 := by
  obtain ⟨hids, hid⟩ := s.register_ids c
  refine ⟨[], hid ▸ Numbered.nil s.autoId, ?_⟩
  rw [hids, List.append_nil]

/-- An element goes on with its id, with a generated one, or without any. -/
theorem Identifies.spell {kind : ControlKind} {a : WidgetAttrs}
    (h : Identifies KeepsIds kind e s a t) :
    t.ids = s.ids ∧ ∃ made, Numbered s.autoId t.autoId made ∧
      (spelled a.id).Sublist (writtenIds [e] ++ made) := by
  cases h with
  | intro before id after =>
    unfold withId at id
    split at id
    · cases id
      refine ⟨after.ids.trans before.ids, [kind.generated s.autoId], ?_, ?_⟩
      · rw [after.autoId]
        exact before.autoId ▸ Numbered.next kind s.autoId
      · rw [spelled, before.autoId]
        split
        · exact List.nil_sublist _
        · exact List.sublist_append_right _ _
    · cases id
      refine ⟨after.ids.trans before.ids, [], ?_, ?_⟩
      · rw [after.autoId, before.autoId]
        exact Numbered.nil s.autoId
      · rw [List.append_nil, Element.writtenIds_singleton]
        exact .refl _

theorem Names.of_makes {kind : ControlKind} (h : Makes KeepsIds kind e s t) :
    Names (writtenIds [e]) s t := by
  have hrecord {a : WidgetAttrs} {u : Session} {c : Control} (hn : Identifies KeepsIds kind e s a u)
      (hc : c.id = a.id) : Names (writtenIds [e]) s (u.register c).2 := by
    obtain ⟨hids, made, hmade, hsub⟩ := hn.spell
    obtain ⟨hadded, hid⟩ := u.register_ids c
    refine ⟨made, hid ▸ hmade, ?_⟩
    rw [hadded, hids, hc]
    exact (List.subperm_append_left _).mpr hsub.subperm
  cases h with
  | refused hn =>
    obtain ⟨hids, made, hmade, -⟩ := hn.spell
    exact ⟨made, hmade, hids ▸ (List.sublist_append_left _ _).subperm⟩
  | mute hn hc => exact hrecord hn hc
  | @heard _ _ _ h _ events listener hn hc =>
    exact (hrecord hn hc).trans_keep (registerWith_ids _ _ h events listener)

theorem Names.finishTabs (s : Session) (e : Element) (view : Handle) :
    Names (writtenIds [e]) s (s.finishTabs e view) := by
  have hkept := shaping_keepsIds.hideForGood s view (WidgetAttrs.ofElement e)
  refine Names.keep_trans hkept ((Names.register _ _).mono ?_)
  rw [Element.writtenIds_singleton]
  exact .refl _

mutual
/-- Each element that is built as a widget has its own id, and so has what is built inside. -/
theorem buildWidget_names (parent : Handle) (e : Element) (s : Session) :
    Names (widgetIds [e]) s (buildWidget parent e s) := by
  obtain ⟨tag, attrs, text, children, inner⟩ := e
  rw [buildWidget]
  split
  · exact (Names.keep (shaping_keepsIds.refl s)).mono List.nil_subperm
  · next hk =>
    split
    next view s₁ hv =>
    have hinside := Names.keep_trans (shaping_keepsIds.createTabView hv)
      (buildTabs_names view children s₁)
    have hbuilt := hinside.trans (Names.finishTabs _ ⟨tag, attrs, text, children, inner⟩ view)
    rw [Element.widgetIds_widget hk]
    exact hbuilt.mono List.perm_append_comm.subperm
  · next kind hne hk =>
    have hpage : kind ≠ .page := ControlKind.ofTag?_ne_page hk
    have hmade := shaping_keepsIds.buildLeaf s ⟨tag, attrs, text, children, inner⟩ parent hne hpage
    rw [Element.widgetIds_widget hk]
    exact (Names.of_makes hmade).mono (List.sublist_append_left _ _).subperm
theorem buildAll_names (parent : Handle) (es : List Element) (s : Session) :
    Names (widgetIds es) s (buildAll parent es s) := by
  cases es with
  | nil =>
    rw [buildAll]
    exact Names.keep (shaping_keepsIds.refl s)
  | cons e es =>
    rw [buildAll, Element.widgetIds_cons]
    exact (buildWidget_names parent e s).trans (buildAll_names parent es _)
theorem buildTabs_names (view : Handle) (es : List Element) (s : Session) :
    Names (widgetIds es) s (buildTabs view es s) := by
  cases es with
  | nil =>
    rw [buildTabs]
    exact Names.keep (shaping_keepsIds.refl s)
  | cons e es =>
    obtain ⟨tag, attrs, text, children, inner⟩ := e
    rw [buildTabs, Element.widgetIds_cons]
    split
    · split
      next tab s₁ hv =>
      have hinside := Names.keep_trans (shaping_keepsIds.createTab hv)
        (buildAll_names tab children s₁)
      exact (hinside.mono (Element.widgetIds_children ⟨_, _, _, _, _⟩).subperm).trans
        (buildTabs_names view es _)
    · exact (buildTabs_names view es s).mono (List.sublist_append_right _ _).subperm
end

theorem buildContents_names (contents : List Content) (s : Session) :
    Names (contents.flatMap fun c => widgetIds c.element.children) s
      (buildContents contents s) := by
  induction contents generalizing s with
  | nil => exact Names.keep (shaping_keepsIds.refl s)
  | cons c cs ih => exact (buildAll_names c.parent c.element.children s).trans (ih _)

/-! ## Laying out -/

/-- A step registers some ids, and tells which of some elements to build. -/
structure Announces (ids : List String) (es : List Element) (s : Session)
    (r : Session × List Content) : Prop where
  names : Names ids s r.1
  contents : (r.2.map (·.element)).Sublist es

theorem Announces.nothing (ids : List String) (es : List Element) (s : Session) :
    Announces ids es s (s, []) where
  names := (Names.keep (shaping_keepsIds.refl s)).mono List.nil_subperm
  contents := List.nil_sublist es

theorem collect_announces {step : Session → Element → Session × List Content}
    {ids : Element → List String} {below : Element → List Element}
    (hstep : ∀ s e, Announces (ids e) (below e) s (step s e)) (es : List Element) (s : Session) :
    Announces (es.flatMap ids) (es.flatMap below) s (collect step es s) := by
  induction es generalizing s with
  | nil => exact Announces.nothing [] [] s
  | cons e es ih =>
    obtain ⟨hnames, hcontents⟩ := hstep s e
    obtain ⟨hnames', hcontents'⟩ := ih (step s e).1
    refine ⟨hnames.trans hnames', ?_⟩
    rw [List.flatMap_cons]
    show ((_ ++ _ : List Content).map _).Sublist _
    rw [List.map_append]
    exact hcontents.append hcontents'

theorem setPageBackground_keepsIds (s : Session) (h : Handle) (page : Element) :
    KeepsIds s (s.setPageBackground h page) := by
  unfold setPageBackground
  extract_lets color
  split <;> exact ⟨rfl, rfl⟩

theorem pushPage_names (s : Session) (id : String) (h : Handle) :
    Names [id] s (s.pushPage id h) := by
  refine ⟨[], Numbered.nil s.autoId, ?_⟩
  rw [ids, pushPage, List.map_append, List.append_nil]
  exact .refl _

/-- A new page or tile gets its background and its control. -/
theorem place_names (s : Session) (m : Navigation) (v : Screen) (h : Handle) (page : Element)
    (id : String) : Names [id] s
      ((({ s with nav := m, screen := v } : Session).setPageBackground h page).pushPage id h) := by
  have hback := setPageBackground_keepsIds { s with nav := m, screen := v } h page
  exact Names.keep_trans ⟨hback.ids, hback.autoId⟩ (pushPage_names _ id h)

theorem renderPage_announces (s : Session) (page : Element) :
    Announces (writtenIds [page]) [page] s (s.renderPage page) := by
  unfold renderPage
  extract_lets id
  split
  · exact Announces.nothing _ _ s
  · next hid =>
    split
    next h m v he =>
    rw [Element.writtenIds_singleton, spelled, if_neg fun he => hid (.inl he)]
    exact ⟨place_names s m v h page id, .refl _⟩

theorem renderTile_announces (gi : Nat) (group : String) (s : Session) (page : Element) :
    Announces [group ++ "/" ++ page.attr "id"] [page] s (renderTile gi group s page) := by
  unfold renderTile
  extract_lets id
  split
  · exact Announces.nothing _ _ s
  · next h m v he => exact ⟨place_names s m v h page (group ++ "/" ++ id), .refl _⟩

/-- The tiles of a group are some of its pages, and go by their ids. -/
theorem renderTiles_announces (gi : Nat) (group : Element) (limit : Nat) (s : Session)
    (hid : group.attr "id" ≠ "") :
    Announces group.tileIds (group.findAll "page") s
      (collect (renderTile gi (group.attr "id")) (tilePages group limit) s) := by
  obtain ⟨hnames, hcontents⟩ :=
    collect_announces (renderTile_announces gi (group.attr "id")) (tilePages group limit) s
  rw [← List.map_eq_flatMap] at hnames
  rw [List.flatMap_singleton'] at hcontents
  refine ⟨hnames.mono (List.Sublist.subperm ?_),
    hcontents.trans ((List.take_sublist _ _).trans List.filter_sublist)⟩
  rw [Element.tileIds, Element.writtenIds_singleton, spelled, if_neg hid, List.flatMap_singleton,
    Element.writtenIds_eq, List.map_map]
  exact (List.take_sublist _ _).map _

/-- A group goes by its id, and its tiles by theirs. -/
theorem renderGroup_announces (s : Session) (group : Element) :
    Announces (group.tileIds ++ writtenIds [group]) (group.findAll "page") s
      (s.renderGroup group) := by
  unfold renderGroup
  extract_lets id
  split
  · exact Announces.nothing _ _ s
  · next hid =>
    split
    next gi m v he =>
    extract_lets s₁
    have htiles := renderTiles_announces gi group s₁.config.maxPagesPerGroup s₁ hid
    split
    next s₂ contents hc =>
    rw [hc] at htiles
    split
    next m' v' hf =>
    extract_lets s₃
    have hadded : KeepsIds s s₁ := ⟨rfl, rfl⟩
    have hdots : KeepsIds s₂ s₃ := ⟨rfl, rfl⟩
    have hlaid := (Names.keep_trans hadded htiles.names).trans_keep hdots
    split
    · exact ⟨hlaid.mono (List.sublist_append_left _ _).subperm, htiles.contents⟩
    · next g hg =>
      extract_lets s₄
      have hlistens : KeepsIds s₃ s₄ := ⟨rfl, rfl⟩
      rw [Element.writtenIds_singleton, spelled, if_neg hid]
      exact ⟨(hlaid.trans_keep hlistens).trans (pushPage_names s₄ id g.view), htiles.contents⟩

/-! ## Rendering -/

theorem showFirst_keepsIds (s : Session) : KeepsIds s s.showFirst := by
  rcases showFirst_display s with he | ⟨path, m, v, -, he⟩
  · rw [he]
    exact ⟨rfl, rfl⟩
  · rw [he]
    exact ⟨rfl, rfl⟩

/-- What is built are pages and tiles, or else the root. -/
theorem arrange_announces (s : Session) (layout : Layout) (root : Element) :
    Names (layout.groups.flatMap tileIds ++ writtenIds layout.groups ++ writtenIds layout.pages) s
        (s.arrange layout root).1 ∧
      (((s.arrange layout root).2.map (·.element)).Sublist
          (layout.groups.flatMap (·.findAll "page") ++ layout.pages) ∨
        (s.arrange layout root).2.map (·.element) = [root]) := by
  unfold arrange
  have hgroups := collect_announces renderGroup_announces layout.groups s
  split
  next s₁ tiles hg =>
  rw [hg] at hgroups
  have hpages := collect_announces renderPage_announces layout.pages s₁
  split
  next s₂ pages hp =>
  rw [hp, Element.flatMap_writtenIds, List.flatMap_singleton'] at hpages
  have hids := (List.flatMap_append_perm layout.groups tileIds fun g => writtenIds [g]).symm
  rw [Element.flatMap_writtenIds] at hids
  refine ⟨(hgroups.names.mono hids.subperm).trans hpages.names, ?_⟩
  dsimp only
  split
  · exact .inr rfl
  · rw [List.map_append]
    exact .inl (hgroups.contents.append hpages.contents)

/-- What is built stands below the document, each element once. -/
theorem contents_subperm {doc : Element} {contents : List Content}
    (h : (contents.map (·.element)).Sublist
        (doc.layout.groups.flatMap (·.findAll "page") ++ doc.layout.pages) ∨
      contents.map (·.element) = [rootOf doc]) :
    (contents.flatMap fun c => widgetIds c.element.children).Subperm (writtenIds doc.widgets) := by
  have hbelow : ((contents.map (·.element)).flatMap Element.descendants).Subperm
      doc.descendants := by
    rcases h with h | h
    · exact (h.flatMap _).subperm.trans doc.below_layout
    · rw [h, List.flatMap_singleton]
      exact (((appOf doc).find?_sublist "ui").trans (doc.find?_sublist "app")).subperm
  have hids : (contents.flatMap fun c => widgetIds c.element.children) =
      writtenIds (((contents.map (·.element)).flatMap Element.descendants).filter
        Element.isWidget) := by
    rw [List.filter_flatMap, writtenIds, List.filterMap_flatMap, List.flatMap_map]
    simp only [Element.descendants_eq]
    rfl
  rw [hids]
  exact subperm_filterMap (hbelow.filter Element.isWidget) _

/-- The controls of a rendered document go by its ids and by generated ones. -/
theorem renderDocument_names (s : Session) (doc : Element) :
    Names doc.ids s (s.renderDocument doc) := by
  unfold renderDocument
  extract_lets u
  have hlaid : Names (doc.layout.groups.flatMap tileIds ++ writtenIds doc.layout.groups ++
        writtenIds doc.layout.pages) s (s.layOutDocument doc).1 ∧
      (((s.layOutDocument doc).2.map (·.element)).Sublist
          (doc.layout.groups.flatMap (·.findAll "page") ++ doc.layout.pages) ∨
        (s.layOutDocument doc).2.map (·.element) = [rootOf doc]) := by
    unfold layOutDocument
    split
    next head store sheet _ =>
    have hread : KeepsIds s { s with head := head, store := store, sheet := sheet } := ⟨rfl, rfl⟩
    obtain ⟨hnames, hcontents⟩ := arrange_announces
      { s with head := head, store := store, sheet := sheet } doc.layout (rootOf doc)
    exact ⟨Names.keep_trans hread hnames, hcontents⟩
  have hbuilt : Names (writtenIds doc.widgets) (s.layOutDocument doc).1 u :=
    (buildContents_names _ _).mono (contents_subperm hlaid.2)
  have hshown := showFirst_keepsIds { u with screen := u.screen.stack u.controls, pendingZ := [] }
  refine ((hlaid.1.trans hbuilt).mono (List.Perm.subperm ?_)).trans_keep
    ⟨hshown.ids, hshown.autoId⟩
  rw [Element.ids, Element.bearers, Element.writtenIds_append, Element.writtenIds_append]
  refine List.perm_append_comm.trans ?_
  simp only [List.append_assoc]
  refine (List.Perm.append_left _ ?_)
  rw [← List.append_assoc]
  exact List.perm_append_comm.trans (List.perm_append_comm.append_left _)

/-- On a cleared session the controls of a document are told apart by their ids, be they written,
generated or those of tiles, if the document tells its elements apart by plain ids. -/
theorem registered_ids_distinct (s : Session) (markup : String)
    (hd : (Markup.parse markup).DistinctIds) :
    ((s.clear.render markup).controls.map (·.id)).Nodup := by
  obtain ⟨made, hmade, hids⟩ := renderDocument_names s.clear (Markup.parse markup)
  rw [← render_eq_renderDocument, show s.clear.ids = [] from rfl, List.nil_append] at hids
  refine nodup_of_subperm hids (List.nodup_append.mpr ⟨hd.nodup, hmade.nodup, ?_⟩)
  intro id hid id' hid' he
  obtain ⟨kind, n, rfl, -⟩ := hmade.number id' hid'
  exact hd.head_ne hid (he ▸ kind.head_generated n)

/-- A label and the page of a group may have the same id, and tabs are registered after what stands
in them. A canvas that is refused takes a number. -/
theorem registered_ids_distinct_of_all_kinds :
    let markup :=
      "<group id='g'><page id='a'><label>\x7bn\x7d</label></page><page id='b'/></group>" ++
      "<page id='p'><label id='a'/><canvas w='99999' h='99999'/><tabs id='t'><tab>" ++
      "<button onclick='f'/><switch/></tab></tabs></page>"
    let s := (Session.new {}).render markup
    (Markup.parse markup).DistinctIds ∧
      (s.clear.render markup).ids = ["g/a", "g/b", "g", "p", "_lbl0", "a", "_btn2", "t"] ∧
      ((s.clear.render markup).controls.map (·.id)).Nodup := by
  intro markup s
  have hd : (Markup.parse markup).DistinctIds := by decide +kernel
  exact ⟨hd, by decide +kernel, registered_ids_distinct s markup hd⟩

end Session
end ScreenMarkup
