import ScreenMarkup.Proofs.Screen.Change
import ScreenMarkup.Proofs.Screen.Later

/-!
# Planting widgets

Building puts every new widget after its siblings and takes none away that was
there. So what it puts into one widget stands there in the order in which it
came, whatever comes into other widgets in between.
-/

set_option autoImplicit false

namespace ScreenMarkup.Screen

variable {s t u : Screen} {h k p : Handle} {P P' Q Q' : Handle → Prop}
  {ps qs : List (Handle × Handle)}

theorem filter_mem_congr {cs hs ks : List Handle} (hc : ∀ c ∈ cs, c ∈ hs ↔ c ∈ ks) :
    cs.filter (· ∈ hs) = cs.filter (· ∈ ks) :=
  List.filter_congr fun c hcs => decide_eq_decide.mpr (hc c hcs)

theorem filter_mem_eq_nil {cs hs : List Handle} (hc : ∀ c ∈ cs, c ∉ hs) :
    cs.filter (· ∈ hs) = [] :=
  List.filter_eq_nil_iff.mpr fun c hcs hin => hc c hcs (decide_eq_true_eq.mp hin)

theorem filter_mem_sublist {hs ls : List Handle} (hls : ls.Nodup) (hsub : hs.Sublist ls) :
    ls.filter (· ∈ hs) = hs := by
  induction hsub with
  | slnil => rfl
  | @cons hs ls a hsub ih =>
    obtain ⟨ha, hls⟩ := List.nodup_cons.mp hls
    rw [List.filter_cons_of_neg (by simpa using fun hin => ha (hsub.subset hin)), ih hls]
  | @cons_cons hs ls a hsub ih =>
    obtain ⟨ha, hls⟩ := List.nodup_cons.mp hls
    rw [List.filter_cons_of_pos (by simp)]
    congr 1
    refine (filter_mem_congr fun c hc => ?_).trans (ih hls)
    have hne : c ≠ a := fun he => ha (he ▸ hc)
    rw [List.mem_cons, or_iff_right hne]

/-- Parts of a list without repetitions are told by their members. -/
theorem sublist_ext {hs ks ls : List Handle} (hls : ls.Nodup) (hsub : hs.Sublist ls)
    (ksub : ks.Sublist ls) (hmem : ∀ k, k ∈ hs ↔ k ∈ ks) : hs = ks := by
  rw [← filter_mem_sublist hls hsub, ← filter_mem_sublist hls ksub]
  exact filter_mem_congr fun c _ => hmem c

theorem Sound.children_dead (hs : s.Sound) (hl : s.isLive k = false) : s.children k = [] := by
  refine List.eq_nil_iff_forall_not_mem.mpr fun c hc => ?_
  rw [hs.parent?_live (hs.mem_children_iff.mp hc)] at hl
  cases hl

/-! ## One widget -/

/-- `h` is new below `p`, with whatever may be new inside of it. -/
structure Sprouts (p h : Handle) (s t : Screen) : Prop where
  sound : t.Sound
  fresh : s.isLive h = false
  live : ∀ k, s.isLive k = true ∨ k = h → t.isLive k = true
  children : ∀ k, k ≠ h → t.children k = s.children k ++ if k = p then [h] else []

theorem sprouts_create (hs : s.Sound) (kind : WidgetKind) (hp : s.isLive p = true) :
    Sprouts p (s.create kind p).1 s (s.create kind p).2 where
  sound := hs.create kind p
  fresh := by
    rw [isLive, hs.create_fresh]
    rfl
  live k hk := by
    rcases hk with hl | rfl
    · exact (later_create s kind p hs).live k hl
    · exact hs.live_create kind p
  children k _ := by
    have hholder : s.holder p = p := if_pos hp
    by_cases hk : k = p
    · have hself := hs.children_create_self kind p
      rw [hholder] at hself
      rw [hk, if_pos rfl, hself]
    · rw [if_neg hk, List.append_nil, hs.children_create kind p (hholder.symm ▸ hk)]

/-- Nothing stands in a widget that was just made. -/
theorem children_create_new (hs : s.Sound) (kind : WidgetKind) (hp : s.isLive p = true) :
    (s.create kind p).2.children (s.create kind p).1 = [] := by
  have hmade := sprouts_create hs kind hp
  have hholder : s.holder p = p := if_pos hp
  have hne : (s.create kind p).1 ≠ p := by
    intro he
    rw [← he, hmade.fresh] at hp
    cases hp
  rw [hs.children_create kind p (hholder.symm ▸ hne), hs.children_dead hmade.fresh]

theorem Sprouts.ne (ht : Sprouts p h s t) (hk : s.isLive k = true) : k ≠ h := by
  rintro rfl
  rw [ht.fresh] at hk
  cases hk

theorem Sprouts.touch {R : Widget → Widget → Prop} (ht : Sprouts p h s t)
    (hu : Touches P R t u) : Sprouts p h s u where
  sound := ht.sound.touch hu
  fresh := ht.fresh
  live k hk := (hu.isLive k).trans (ht.live k hk)
  children k hk := (hu.children k).trans (ht.children k hk)

/-- More widgets inside of the new one. -/
theorem Sprouts.create (ht : Sprouts p h s t) (kind : WidgetKind) :
    Sprouts p h s (t.create kind h).2 where
  sound := ht.sound.create kind h
  fresh := ht.fresh
  live k hk := (later_create t kind h ht.sound).live k (ht.live k hk)
  children k hk := by
    have hholder : t.holder h = h := if_pos (ht.live h (.inr rfl))
    rw [ht.sound.children_create kind h (hholder.symm ▸ hk)]
    exact ht.children k hk

/-! ## Many widgets -/

/-- What a list of pairs puts below `h`. -/
def below (ps : List (Handle × Handle)) (h : Handle) : List Handle :=
  (ps.filter (·.1 = h)).map (·.2)

theorem mem_below : k ∈ below ps h ↔ (h, k) ∈ ps := by
  simp [below]

theorem below_append (ps qs : List (Handle × Handle)) (h : Handle) :
    below (ps ++ qs) h = below ps h ++ below qs h := by
  rw [below, List.filter_append, List.map_append]
  rfl

theorem below_sublist (ps : List (Handle × Handle)) (k : Handle) :
    (below ps k).Sublist (ps.map (·.2)) :=
  List.filter_sublist.map _

/-- The second of each pair is new and stands below the first. What stands below one widget comes
in the order of the list, after all that was there before, and the widgets that were there before
and get others inside are some of `P`. Whatever else is new stands inside of something that is
listed, or of a widget in `Q`. -/
structure Plants (P Q : Handle → Prop) (ps : List (Handle × Handle)) (s t : Screen) : Prop where
  sound : t.Sound
  live : ∀ k, s.isLive k = true → t.isLive k = true
  grows : ∀ k, s.children k <+: t.children k
  within : ∀ e ∈ ps, s.isLive e.1 = true → P e.1
  fresh : ∀ e ∈ ps, s.isLive e.2 = false
  nodup : (ps.map (·.2)).Nodup
  listed : ∀ k, (t.children k).filter (· ∈ ps.map (·.2)) = below ps k
  covers : ∀ k, ∀ c ∈ t.children k,
    s.isLive c = true ∨ c ∈ ps.map (·.2) ∨ k ∈ ps.map (·.2) ∨ Q k

/-- Nothing is planted, but there may be more in `Q`. -/
theorem Plants.none (ht : t.Sound) (hl : ∀ k, s.isLive k = true → t.isLive k = true)
    (hg : ∀ k, s.children k <+: t.children k)
    (hc : ∀ k, ∀ c ∈ t.children k, s.isLive c = true ∨ Q k) : Plants P Q [] s t where
  sound := ht
  live := hl
  grows := hg
  within := by simp
  fresh := by simp
  nodup := List.nodup_nil
  listed k := by simp [below]
  covers k c hk := (hc k c hk).imp_right fun hq => .inr (.inr hq)

theorem Plants.refl (hs : s.Sound) : Plants P Q [] s s :=
  none hs (fun _ hl => hl) (fun _ => List.prefix_refl _) fun _ _ hc => .inl (hs.children_live hc)

theorem Plants.mono (ht : Plants P Q ps s t) (hP : ∀ k, s.isLive k = true → P k → P' k) :
    Plants P' Q ps s t :=
  { ht with within := fun e he hl => hP _ hl (ht.within e he hl) }

theorem Plants.mem_children (ht : Plants P Q ps s t) {e : Handle × Handle} (he : e ∈ ps) :
    e.2 ∈ t.children e.1 := by
  have hin : e.2 ∈ below ps e.1 := mem_below.mpr he
  rw [← ht.listed] at hin
  exact List.mem_of_mem_filter hin

theorem Plants.filter_below (ht : Plants P Q ps s t) (k : Handle) :
    (t.children k).filter (· ∈ below ps k) = below ps k := by
  have hsame : ∀ c ∈ t.children k, c ∈ below ps k ↔ c ∈ ps.map (·.2) := fun c hc => by
    refine ⟨fun hb => (below_sublist ps k).subset hb, fun hin => ?_⟩
    rw [← ht.listed k]
    exact List.mem_filter.mpr ⟨hc, decide_eq_true hin⟩
  rw [filter_mem_congr hsame]
  exact ht.listed k

theorem Plants.isLive (ht : Plants P Q ps s t) (hk : k ∈ ps.map (·.2)) : t.isLive k = true := by
  obtain ⟨e, he, rfl⟩ := List.mem_map.mp hk
  exact ht.sound.children_live (ht.mem_children he)

theorem Plants.isLive_eq_false (ht : Plants P Q ps s t) (hk : k ∈ ps.map (·.2)) :
    s.isLive k = false := by
  obtain ⟨e, he, rfl⟩ := List.mem_map.mp hk
  exact ht.fresh e he

/-- What comes after the children that were there is new. -/
theorem Sound.exists_children (hs : s.Sound) (ht : t.Sound)
    (hg : ∀ k, s.children k <+: t.children k) (k : Handle) :
    ∃ new, t.children k = s.children k ++ new ∧ ∀ c ∈ new, s.isLive c = false := by
  obtain ⟨new, he⟩ := hg k
  refine ⟨new, he.symm, fun c hc => ?_⟩
  rw [Bool.eq_false_iff]
  intro hl
  have hk : t.parent? c = some k :=
    ht.mem_children_iff.mp (he ▸ List.mem_append_right _ hc)
  have hscreen : c ≠ Handle.screen := by
    rintro rfl
    rw [ht.screen_parent?] at hk
    cases hk
  obtain ⟨p, hp⟩ := hs.parent?_isSome hl hscreen
  have hcp := hs.mem_children_iff.mpr hp
  -- the widget keeps its parent, so it would stand twice below it
  have hpk : p = k :=
    Option.some.inj ((ht.mem_children_iff.mp ((hg p).subset hcp)).symm.trans hk)
  have hnodup := ht.children_nodup k
  rw [← he, List.nodup_append] at hnodup
  exact hnodup.2.2 c (hpk ▸ hcp) c hc rfl

theorem Plants.trans (h₁ : Plants P Q ps s t) (h₂ : Plants P' Q' qs t u)
    (hP : ∀ k, s.isLive k = true → P' k → P k) (hQ : ∀ k, Q' k → Q k) :
    Plants P Q (ps ++ qs) s u where
  sound := h₂.sound
  live k hl := h₂.live k (h₁.live k hl)
  grows k := (h₁.grows k).trans (h₂.grows k)
  within e he hl := by
    rcases List.mem_append.mp he with he | he
    · exact h₁.within e he hl
    · exact hP _ hl (h₂.within e he (h₁.live _ hl))
  fresh e he := by
    rcases List.mem_append.mp he with he | he
    · exact h₁.fresh e he
    · exact Bool.eq_false_iff.mpr fun hl => Bool.eq_false_iff.mp (h₂.fresh e he) (h₁.live _ hl)
  nodup := by
    rw [List.map_append, List.nodup_append]
    refine ⟨h₁.nodup, h₂.nodup, fun a ha b hb hab => ?_⟩
    have hold := h₁.isLive ha
    rw [hab, h₂.isLive_eq_false hb] at hold
    cases hold
  listed k := by
    obtain ⟨new, hnew, hfresh⟩ := h₁.sound.exists_children h₂.sound h₂.grows k
    have hold : ∀ c ∈ t.children k, c ∉ qs.map (·.2) := fun c hc hq =>
      Bool.eq_false_iff.mp (h₂.isLive_eq_false hq) (h₁.sound.children_live hc)
    have hadded : ∀ c ∈ new, c ∉ ps.map (·.2) := fun c hc hp =>
      Bool.eq_false_iff.mp (hfresh c hc) (h₁.isLive hp)
    have hfirst : (t.children k).filter (· ∈ (ps ++ qs).map (·.2)) = below ps k := by
      rw [← h₁.listed]
      refine filter_mem_congr fun c hc => ?_
      rw [List.map_append, List.mem_append, or_iff_left (hold c hc)]
    have hsecond : new.filter (· ∈ (ps ++ qs).map (·.2)) = below qs k := by
      rw [← h₂.listed, hnew, List.filter_append, filter_mem_eq_nil hold, List.nil_append]
      refine filter_mem_congr fun c hc => ?_
      rw [List.map_append, List.mem_append, or_iff_right (hadded c hc)]
    rw [hnew, List.filter_append, hfirst, hsecond, below_append]
  covers k c hc := by
    obtain ⟨new, hnew, hfresh⟩ := h₁.sound.exists_children h₂.sound h₂.grows k
    rw [List.map_append, List.mem_append, List.mem_append]
    rcases h₂.covers k c hc with hl | hlisted | hinside | hq
    · have hold : c ∈ t.children k := by
        rw [hnew] at hc
        refine (List.mem_append.mp hc).resolve_right fun hin => ?_
        rw [hfresh c hin] at hl
        cases hl
      rcases h₁.covers k c hold with hl | hlisted | hinside | hq
      · exact .inl hl
      · exact .inr (.inl (.inl hlisted))
      · exact .inr (.inr (.inl (.inl hinside)))
      · exact .inr (.inr (.inr hq))
    · exact .inr (.inl (.inr hlisted))
    · exact .inr (.inr (.inl (.inr hinside)))
    · exact .inr (.inr (.inr (hQ k hq)))

theorem Plants.touch {H : Handle → Prop} {R : Widget → Widget → Prop} (ht : Plants P Q ps s t)
    (hu : Touches H R t u) : Plants P Q ps s u where
  sound := ht.sound.touch hu
  live k hl := (hu.isLive k).trans (ht.live k hl)
  grows k := hu.children k ▸ ht.grows k
  within := ht.within
  fresh := ht.fresh
  nodup := ht.nodup
  listed k := hu.children k ▸ ht.listed k
  covers k c hc := ht.covers k c (hu.children k ▸ hc)

/-- A new widget is planted, with what stands inside of it. -/
theorem Sprouts.plants (hs : s.Sound) (hp : s.isLive p = true) (ht : Sprouts p h s t) :
    Plants (· = p) Q [(p, h)] s t where
  sound := ht.sound
  live k hl := ht.live k (.inl hl)
  grows k := by
    by_cases hk : k = h
    · rw [hs.children_dead (hk ▸ ht.fresh)]
      exact List.nil_prefix
    · rw [ht.children k hk]
      exact List.prefix_append _ _
  within e he _ := by
    rw [List.mem_singleton.mp he]
  fresh e he := by
    rw [List.mem_singleton.mp he]
    exact ht.fresh
  nodup := List.nodup_singleton h
  listed k := by
    have hph := ht.ne hp
    have hstands : h ∈ t.children p := by
      rw [ht.children p hph, if_pos rfl]
      exact List.mem_concat_self
    by_cases hk : k = h
    · have hout : h ∉ t.children k := fun hin => hph <| Option.some.inj <|
        (ht.sound.mem_children_iff.mp hstands).symm.trans
          ((ht.sound.mem_children_iff.mp hin).trans (congrArg some hk))
      have hnone : ∀ c ∈ t.children k, c ∉ [h] := fun c hc hch =>
        hout (List.mem_singleton.mp hch ▸ hc)
      rw [List.map_singleton, filter_mem_eq_nil hnone, hk]
      simp [below, hph]
    · have hold : ∀ c ∈ s.children k, c ∉ [h] := fun c hc hch =>
        ht.ne (hs.children_live hc) (List.mem_singleton.mp hch)
      rw [ht.children k hk, List.filter_append, List.map_singleton, filter_mem_eq_nil hold]
      by_cases hkp : k = p
      · simp [below, hkp]
      · simp [below, hkp, Ne.symm hkp]
  covers k c hc := by
    by_cases hk : k = h
    · exact .inr (.inr (.inl (hk ▸ List.mem_singleton_self h)))
    · rw [ht.children k hk] at hc
      rcases List.mem_append.mp hc with hold | hnew
      · exact .inl (hs.children_live hold)
      · split at hnew
        · exact .inr (.inl hnew)
        · cases hnew

/-- A new widget that is not planted, with nothing inside. -/
theorem Sprouts.nothing (hs : s.Sound) (hp : s.isLive p = true) (ht : Sprouts p h s t)
    (hempty : t.children h = []) : Plants P (· = p) [] s t := by
  have hplants : Plants (· = p) (· = p) [(p, h)] s t := ht.plants hs hp
  refine Plants.none hplants.sound hplants.live hplants.grows fun k c hc => ?_
  by_cases hk : k = h
  · rw [hk, hempty] at hc
    cases hc
  · rw [ht.children k hk] at hc
    rcases List.mem_append.mp hc with hold | hnew
    · exact .inl (hs.children_live hold)
    · split at hnew
      · next hkp => exact .inr hkp
      · cases hnew

/-- A new widget that is deleted again leaves nothing. -/
theorem Sprouts.discard (hs : s.Sound) (ht : Sprouts p h s t)
    (hb : t.branch? h = some (Branch.leaf h)) : Plants P Q [] s (t.delete h) := by
  have hscreen : h ≠ Handle.screen := (ht.ne hs.screen_live).symm
  have hsound := ht.sound.delete h
  have hlive (k : Handle) : (t.delete h).isLive k = (k ≠ h && t.isLive k) := by
    rw [isLive, ht.sound.widget?_delete hscreen hb]
    by_cases hk : k = h <;> simp [Branch.leaf, Branch.handles, Branch.handlesAll, isLive, hk]
  have hsame (k : Handle) : (t.delete h).children k = s.children k := by
    by_cases hk : k = h
    · rw [hk, hs.children_dead ht.fresh, hsound.children_dead (by simp [hlive])]
    · have hold : (s.children k).filter (· ≠ h) = s.children k :=
        List.filter_eq_self.mpr fun c hc => by simpa using ht.ne (hs.children_live hc)
      have hnew : (if k = p then [h] else []).filter (· ≠ h) = [] := by split <;> simp
      rw [ht.sound.children_delete_leaf hscreen hb hk, ht.children k hk, List.filter_append, hold,
        hnew, List.append_nil]
  refine Plants.none hsound (fun k hl => ?_) (fun k => ?_) fun k c hc => .inl ?_
  · rw [hlive, ht.live k (.inl hl), Bool.and_true, decide_eq_true_eq]
    exact ht.ne hl
  · exact ⟨[], by rw [hsame, List.append_nil]⟩
  · rw [hsame] at hc
    exact hs.children_live hc

/-- A widget and then what is planted inside of it; the widget may be listed last. -/
theorem Plants.enclose (hp : s.isLive p = true)
    (h₁ : Plants (· = p) (· = h) [(p, h)] s t) (h₂ : Plants (· = h) (· = h) ps t u) :
    Plants (· = p) Q (ps ++ [(p, h)]) s u := by
  have hfresh : s.isLive h = false := h₁.fresh _ List.mem_cons_self
  have hnew : ∀ k, s.isLive k = true → k = h → k = p := fun k hl hk => by
    rw [hk, hfresh] at hl
    cases hl
  have hall := h₁.trans h₂ hnew fun _ hk => hk
  have hperm : (ps ++ [(p, h)]).Perm ((p, h) :: ps) := List.perm_append_singleton _ _
  refine
    { hall with
      within := fun e he => hall.within e (hperm.mem_iff.mp he)
      fresh := fun e he => hall.fresh e (hperm.mem_iff.mp he)
      nodup := (hperm.map _).nodup_iff.mpr hall.nodup
      listed := fun k => ?_
      covers := fun k c hc => ?_ }
  · simp only [(hperm.map (·.2)).mem_iff]
    refine (hall.listed k).trans ?_
    rw [below_append, below_append]
    by_cases hk : k = p
    · have hnone : below ps k = [] := List.eq_nil_iff_forall_not_mem.mpr fun c hc => by
        have hin := h₂.within _ (mem_below.mp hc) (hk ▸ h₁.live p hp)
        rw [← hin, hk, hp] at hfresh
        cases hfresh
      rw [hnone, List.append_nil, List.nil_append]
    · have hother : below [(p, h)] k = [] := by simp [below, Ne.symm hk]
      rw [hother, List.append_nil, List.nil_append]
  · simp only [(hperm.map (·.2)).mem_iff]
    refine (hall.covers k c hc).imp_right (Or.imp_right fun hk => .inl ?_)
    -- what is still open stands in the widget itself
    rcases hk with hlisted | hself
    · exact hlisted
    · exact hself ▸ List.mem_cons_self

end ScreenMarkup.Screen
