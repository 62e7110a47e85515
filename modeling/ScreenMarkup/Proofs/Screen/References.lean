import ScreenMarkup.Proofs.Screen.Later

/-!
# References between widgets

A keyboard names the text area that it writes to, and a view the tile in
front. Both are set by a step of their own. All other changes leave a widget
its kind and what it names, so they keep whatever follows from that, such as
that every named widget is there.
-/

set_option autoImplicit false

namespace ScreenMarkup

namespace Widget

/-- What other changes than those of its references leave a widget. -/
structure Ties where
  kind : WidgetKind
  keyboardTarget : Option Handle
  activeTile : Option Handle

def ties (w : Widget) : Ties := ⟨w.kind, w.keyboardTarget, w.activeTile⟩

/-- The widgets that a widget names. -/
def named (w : Widget) : List Handle := w.keyboardTarget.toList ++ w.activeTile.toList

theorem named_of_ties {w v : Widget} (ht : v.ties = w.ties) : v.named = w.named := by
  have hkeyboard : v.keyboardTarget = w.keyboardTarget := congrArg Ties.keyboardTarget ht
  have htile : v.activeTile = w.activeTile := congrArg Ties.activeTile ht
  rw [named, named, hkeyboard, htile]

theorem realign_ties (w : Widget) (p : Option Size) : (w.realign p).ties = w.ties := by
  unfold realign
  split <;> rfl

theorem setSize_ties (w : Widget) (p : Option Size) (x y : Int) :
    (w.setSize p x y).ties = w.ties :=
  realign_ties _ p

theorem align_ties (w : Widget) (p : Option Size) (a : Align) (shift : Offset) :
    (w.align p a shift).ties = w.ties :=
  realign_ties _ p

theorem configure_ties (w : Widget) {setting : Setting} (hs : ∀ h, setting ≠ .keyboardTarget h) :
    (w.configure setting).ties = w.ties := by
  cases setting with
  | keyboardTarget h => exact absurd rfl (hs h)
  | _ => rfl

end Widget

namespace Screen

variable {s t u : Screen} {h k p : Handle}

/-! ## Steps -/

/-- A relation that changes of single widgets stay within, if they leave a widget its ties. -/
structure Steps (R : Screen → Screen → Prop) : Prop where
  refl : ∀ s, R s s
  trans : ∀ {s t u}, R s t → R t u → R s u
  modify : ∀ s h {f : Widget → Widget}, (∀ w, (f w).ties = w.ties) → R s (s.modify h f)

namespace Steps

variable {R : Screen → Screen → Prop}

theorem styling (hR : Steps R) (h : Handle) : Styling h R where
  refl := hR.refl
  trans := hR.trans
  setPos s _ _ := hR.modify s h fun _ => rfl
  setSize s _ _ := hR.modify s h fun w => w.setSize_ties _ _ _
  applyStyle s _ := hR.modify s h fun _ => rfl

theorem ite (hR : Steps R) {c : Prop} [Decidable c] (ht : R s t) : R s (if c then t else s) := by
  split
  · exact ht
  · exact hR.refl s

theorem foldl {α : Type} {f : Screen → α → Screen} (hR : Steps R) (hf : ∀ s a, R s (f s a))
    (as : List α) (s : Screen) : R s (as.foldl f s) := by
  induction as generalizing s with
  | nil => exact hR.refl s
  | cons a as ih => exact hR.trans (hf s a) (ih (f s a))

theorem align (hR : Steps R) (s : Screen) (h : Handle) (a : Align) (shift : Offset) :
    R s (s.align h a shift) :=
  hR.modify s h fun w => w.align_ties _ a shift

theorem configure (hR : Steps R) (s : Screen) (h : Handle) (setting : Setting)
    (hs : ∀ k, setting ≠ .keyboardTarget k) : R s (s.configure h setting) :=
  hR.modify s h fun w => w.configure_ties hs

theorem setText (hR : Steps R) (s : Screen) (h : Handle) (text : String) :
    R s (s.setText h text) :=
  hR.modify (f := ({ · with text := text })) s h fun _ => rfl

theorem resize (hR : Steps R) (s : Screen) (h : Handle) (x y : Int) : R s (s.resize h x y) :=
  (hR.styling h).setSize s _ _

end Steps

theorem steps_later : Steps Later where
  refl := Later.refl
  trans := Later.trans
  modify s h f _ := later_modify s h f

/-! ## Intact references -/

/-- What a widget names is there, and all handles of widgets count from one. -/
structure Linked (s : Screen) : Prop where
  sound : s.Sound
  counted : ∀ h, s.isLive h = true → h.generation ≠ 0
  named : ∀ h w, s.widget? h = some w → ∀ k ∈ w.named, s.isLive k = true

/-- A step that loses no widget and keeps references intact. -/
def Links (s t : Screen) : Prop :=
  s.Linked → t.Linked ∧ ∀ k, s.isLive k = true → t.isLive k = true

theorem Links.refl (s : Screen) : Links s s := fun hs => ⟨hs, fun _ hk => hk⟩

theorem Links.trans (h₁ : Links s t) (h₂ : Links t u) : Links s u := by
  intro hs
  obtain ⟨ht, hlive₁⟩ := h₁ hs
  obtain ⟨hu, hlive₂⟩ := h₂ ht
  exact ⟨hu, fun k hk => hlive₂ k (hlive₁ k hk)⟩

/-- The widgets that are there stay, and those that are named in the end were there. -/
theorem Linked.keep (hs : s.Linked) (ht : t.Sound) (hlive : ∀ k, t.isLive k = s.isLive k)
    (hn : ∀ h w, t.widget? h = some w → ∀ k ∈ w.named, s.isLive k = true) :
    t.Linked ∧ ∀ k, s.isLive k = true → t.isLive k = true := by
  refine ⟨⟨ht, fun h hl => hs.counted h ((hlive h).symm.trans hl), fun h w hw k hk => ?_⟩,
    fun k hk => (hlive k).trans hk⟩
  exact (hlive k).trans (hn h w hw k hk)

theorem Linked.modify (hs : s.Linked) (h : Handle) {f : Widget → Widget}
    (hf : ∀ w, s.widget? h = some w → ∀ k ∈ (f w).named, s.isLive k = true) :
    (s.modify h f).Linked ∧ ∀ k, s.isLive k = true → (s.modify h f).isLive k = true := by
  have ht : Touches (· = h) (fun _ _ => True) s (s.modify h f) :=
    touches_modify (fun _ => trivial) fun _ => trivial
  refine hs.keep (hs.sound.touch ht) ht.isLive fun k v hv => ?_
  rw [widget?_modify] at hv
  split at hv
  · obtain ⟨w, hw, rfl⟩ := Option.map_eq_some_iff.mp hv
    exact hf w hw
  · exact hs.named k v hv

theorem steps_links : Steps Links where
  refl := Links.refl
  trans := Links.trans
  modify _ h _ hf hs := hs.modify h fun w hw k hk =>
    hs.named h w hw k (Widget.named_of_ties (hf w) ▸ hk)

/-- A new widget names no other. -/
theorem links_create (s : Screen) (kind : WidgetKind) (parent : Handle) :
    Links s (s.create kind parent).2 := by
  intro hs
  have hmade := later_create s kind parent hs.sound
  refine ⟨⟨hmade.sound, fun h hl => ?_, fun h w hw k hk => ?_⟩, hmade.live⟩
  · rw [isLive, hs.sound.widget?_create] at hl
    split at hl
    · next he =>
      rw [he, create_fst]
      exact upcoming_named s 0
    · exact hs.counted h hl
  · rw [hs.sound.widget?_create] at hw
    split at hw
    · cases hw
      cases hk
    · exact hmade.live k (hs.named h w hw k hk)

/-- A view may show a tile that was made before. -/
theorem links_setActiveTile {view tile : Handle} {kind : WidgetKind} {parent : Handle}
    (hc : s.create kind parent = (tile, t)) (ht : Links t u) :
    Links s (u.setActiveTile view tile) := by
  intro hs
  have hlive := hs.sound.live_create kind parent
  have hmade := links_create s kind parent
  rw [hc] at hlive hmade
  obtain ⟨hu, hkept⟩ := hmade.trans ht hs
  have htile : u.isLive tile = true := (ht (hmade hs).1).2 tile hlive
  obtain ⟨hset, hstay⟩ := hu.modify view (f := ({ · with activeTile := some tile }))
    fun w hw k hk => by
      rcases List.mem_append.mp hk with hk | hk
      · exact hu.named view w hw k (List.mem_append_left _ hk)
      · exact List.mem_singleton.mp hk ▸ htile
  exact ⟨hset, fun k hk => hstay k (hkept k hk)⟩

theorem links_raise (s : Screen) (h : Handle) : Links s (s.raise h) := by
  intro hs
  refine hs.keep (hs.sound.raise h) (fun k => isLive_congr (widget?_raise s h k)) fun k w hw => ?_
  rw [widget?_raise] at hw
  exact hs.named k w hw

/-! ## A widget that is made and deleted again -/

/-- The changes of a new widget go with it. -/
theorem Sound.widget?_delete_new (hs : s.Sound) {kind : WidgetKind} {P : Widget → Widget → Prop}
    (ht : Touches (· = (s.create kind p).1) P (s.create kind p).2 t) (k : Handle) :
    (t.delete (s.create kind p).1).widget? k = s.widget? k := by
  have hne : (s.create kind p).1 ≠ Handle.screen := (hs.create_ne kind p hs.screen_live).symm
  have hbranch : t.branch? (s.create kind p).1 = some (Branch.leaf (s.create kind p).1) := by
    rw [branch?, ht.shape]
    exact hs.branch?_create kind p
  have hleaf : (Branch.leaf (s.create kind p).1).handles = [(s.create kind p).1] := rfl
  rw [((hs.create kind p).touch ht).widget?_delete hne hbranch, hleaf]
  by_cases hk : k = (s.create kind p).1
  · rw [if_pos (hk ▸ List.mem_singleton.mpr rfl), hk, hs.create_fresh]
  · rw [if_neg fun hin => hk (List.mem_singleton.mp hin), ht.frame k hk, hs.widget?_create,
      if_neg hk]

theorem links_delete_new (s : Screen) {kind : WidgetKind} {P : Widget → Widget → Prop}
    (ht : Touches (· = (s.create kind p).1) P (s.create kind p).2 t) :
    Links s (t.delete (s.create kind p).1) := by
  intro hs
  have hw := hs.sound.widget?_delete_new ht
  refine hs.keep (((hs.sound.create kind p).touch ht).delete _) (fun k => isLive_congr (hw k))
    fun k w hk => ?_
  rw [hw] at hk
  exact hs.named k w hk

end Screen
end ScreenMarkup
