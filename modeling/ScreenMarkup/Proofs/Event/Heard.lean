import Mathlib.Data.List.Nodup
import ScreenMarkup.Event.Router

/-!
# What is heard

A listener that waits for an event of a widget waits on, whatever else is
registered, until a later widget takes the place of that one.
-/

set_option autoImplicit false

namespace ScreenMarkup

namespace Router

variable {r r₁ r₂ r₃ : Router} {h k : Handle} {kind : EventKind} {l : Listener}

/-- Each place has one subscription, and it is not empty. -/
structure Sound (r : Router) : Prop where
  nodup : (r.subscriptions.map (·.widget.slot)).Nodup
  nonempty : ∀ q ∈ r.subscriptions, q.listeners ≠ []

/-- Among the subscriptions is one with the listener, or one of a later widget in its place. -/
def HeardAmong (ss : List Subscription) (h : Handle) (kind : EventKind) (l : Listener) : Prop :=
  ∃ q ∈ ss, q.widget.slot = h.slot ∧
    (h.generation < q.widget.generation ∨ q.widget = h ∧ (kind, l) ∈ q.listeners)

/-- The listener waits for the event, unless a later widget came to the place of the widget. -/
abbrev Heard (r : Router) (h : Handle) (kind : EventKind) (l : Listener) : Prop :=
  HeardAmong r.subscriptions h kind l

/-- Whatever is heard on one router is heard on the other. -/
structure Keeps (r₁ r₂ : Router) : Prop where
  sound : r₁.Sound → r₂.Sound
  heard : ∀ h kind l, r₁.Heard h kind l → r₂.Heard h kind l

theorem Keeps.of_eq (he : r₂.subscriptions = r₁.subscriptions) : Keeps r₁ r₂ where
  sound hs := ⟨he ▸ hs.nodup, he ▸ hs.nonempty⟩
  heard h kind l hl := by
    rw [Heard, he]
    exact hl

theorem Keeps.trans (h₁ : Keeps r₁ r₂) (h₂ : Keeps r₂ r₃) : Keeps r₁ r₃ :=
  ⟨fun hs => h₂.sound (h₁.sound hs), fun h kind l hl => h₂.heard h kind l (h₁.heard h kind l hl)⟩

theorem subscribe_slots (h : Handle) (entry : EventKind × Listener) (ss : List Subscription) :
    (subscribe h entry ss).map (·.widget.slot) = ss.map (·.widget.slot) ∨
      h.slot ∉ ss.map (·.widget.slot) ∧
        (subscribe h entry ss).map (·.widget.slot) = ss.map (·.widget.slot) ++ [h.slot] := by
  induction ss with
  | nil => exact .inr ⟨List.not_mem_nil, rfl⟩
  | cons s ss ih =>
    unfold subscribe
    split
    · next hslot =>
      left
      split
      · rfl
      · split
        · simp [hslot]
        · rfl
    · next hslot =>
      rcases ih with he | ⟨hnew, he⟩
      · exact .inl (by simp [he])
      · exact .inr ⟨by simpa [Ne.symm hslot] using hnew, by simp [he]⟩

theorem subscribe_nonempty {entry : EventKind × Listener} {ss : List Subscription}
    (hs : ∀ q ∈ ss, q.listeners ≠ []) : ∀ q ∈ subscribe h entry ss, q.listeners ≠ [] := by
  induction ss with
  | nil => simp [subscribe]
  | cons s ss ih =>
    have hss := fun q hq => hs q (List.mem_cons_of_mem s hq)
    unfold subscribe
    split_ifs <;> intro q hq
    · rcases List.mem_cons.mp hq with rfl | hq
      · simp
      · exact hss q hq
    · rcases List.mem_cons.mp hq with rfl | hq
      · simp
      · exact hss q hq
    · exact hs q hq
    · rcases List.mem_cons.mp hq with rfl | hq
      · exact hs q List.mem_cons_self
      · exact ih hss q hq

theorem eq_of_slot_generation {a b : Handle} (hs : a.slot = b.slot)
    (hg : a.generation = b.generation) : a = b := by
  cases a
  cases b
  simp_all

/-- A new listener takes the place of an older widget's only. -/
theorem heardAmong_subscribe {entry : EventKind × Listener} {ss : List Subscription}
    (hl : HeardAmong ss k kind l) : HeardAmong (subscribe h entry ss) k kind l := by
  induction ss with
  | nil => exact absurd hl (by simp [HeardAmong])
  | cons s ss ih =>
    obtain ⟨q, hq, hslot, hheard⟩ := hl
    have hrest {s' : Subscription} (hin : q ∈ ss) : HeardAmong (s' :: ss) k kind l :=
      ⟨q, List.mem_cons_of_mem s' hin, hslot, hheard⟩
    unfold subscribe
    split
    · next hplace =>
      split
      · rcases List.mem_cons.mp hq with rfl | hq
        · exact ⟨_, List.mem_cons_self, hslot,
            hheard.imp_right fun ⟨hk, hin⟩ => ⟨hk, List.mem_append_left _ hin⟩⟩
        · exact hrest hq
      · split
        · next hlater =>
          rcases List.mem_cons.mp hq with rfl | hq
          · refine ⟨_, List.mem_cons_self, hplace.symm.trans hslot, .inl ?_⟩
            rcases hheard with hout | ⟨rfl, -⟩
            · exact Nat.lt_trans hout hlater
            · exact hlater
          · exact hrest hq
        · exact ⟨q, hq, hslot, hheard⟩
    · rcases List.mem_cons.mp hq with rfl | hq
      · exact ⟨q, List.mem_cons_self, hslot, hheard⟩
      · obtain ⟨p, hp, hheard⟩ := ih ⟨q, hq, hslot, hheard⟩
        exact ⟨p, List.mem_cons_of_mem s hp, hheard⟩

theorem heardAmong_subscribe_self (h : Handle) (kind : EventKind) (l : Listener)
    (ss : List Subscription) : HeardAmong (subscribe h (kind, l) ss) h kind l := by
  induction ss with
  | nil => exact ⟨_, List.mem_cons_self, rfl, .inr ⟨rfl, List.mem_cons_self⟩⟩
  | cons s ss ih =>
    unfold subscribe
    split
    · next hslot =>
      split
      · next hgen =>
        exact ⟨_, List.mem_cons_self, hslot,
          .inr ⟨eq_of_slot_generation hslot hgen, List.mem_append_right _ List.mem_cons_self⟩⟩
      · next hne =>
        split
        · exact ⟨_, List.mem_cons_self, rfl, .inr ⟨rfl, List.mem_cons_self⟩⟩
        · next hle => exact ⟨s, List.mem_cons_self, hslot, .inl (by omega)⟩
    · obtain ⟨p, hp, hheard⟩ := ih
      exact ⟨p, List.mem_cons_of_mem s hp, hheard⟩

theorem on_keeps (r : Router) (h : Handle) (kind : EventKind) (l : Listener) :
    Keeps r (r.on h kind l) := by
  unfold on
  split
  · exact Keeps.of_eq rfl
  · refine ⟨fun hs => ⟨?_, subscribe_nonempty hs.nonempty⟩, fun _ _ _ => heardAmong_subscribe⟩
    rcases subscribe_slots h (kind, l) r.subscriptions with he | ⟨hnew, he⟩
    · exact he ▸ hs.nodup
    · rw [he, List.nodup_append]
      exact ⟨hs.nodup, List.nodup_singleton _, fun a ha b hb hab =>
        hnew (List.mem_singleton.mp hb ▸ hab ▸ ha)⟩

theorem onAll_keeps (r : Router) (h : Handle) (kinds : List EventKind) (l : Listener) :
    Keeps r (r.onAll h kinds l) := by
  induction kinds generalizing r with
  | nil => exact Keeps.of_eq rfl
  | cons kind kinds ih => exact (on_keeps r h kind l).trans (ih (r.on h kind l))

theorem heard_on (hg : h.generation ≠ 0) : (r.on h kind l).Heard h kind l := by
  rw [on, if_neg hg]
  exact heardAmong_subscribe_self h kind l r.subscriptions

/-- What is heard of the latest widget in its place is among its listeners. -/
theorem Sound.mem_listeners (hr : r.Sound) (hl : r.Heard h kind l)
    (hlast : ∀ q ∈ r.subscriptions, q.widget.slot = h.slot → q.widget = h) :
    l ∈ r.listeners h kind := by
  obtain ⟨q, hq, hslot, hheard⟩ := hl
  have hself : q.widget = h := hlast q hq hslot
  have hin : (kind, l) ∈ q.listeners := by
    rcases hheard with hout | ⟨-, hin⟩
    · rw [hself] at hout
      exact absurd hout (Nat.lt_irrefl _)
    · exact hin
  have hfind : r.subscriptions.find? (fun s => s.widget = h) = some q := by
    have hsome : (r.subscriptions.find? fun s => s.widget = h).isSome = true :=
      List.find?_isSome.mpr ⟨q, hq, by simpa using hself⟩
    obtain ⟨p, hp⟩ := Option.isSome_iff_exists.mp hsome
    have hwidget : p.widget = h := by simpa using List.find?_some hp
    rw [hp, List.inj_on_of_nodup_map hr.nodup (List.mem_of_find?_eq_some hp) hq
      (congrArg Handle.slot (hwidget.trans hself.symm))]
  rw [listeners, all, hfind]
  exact List.mem_map.mpr ⟨(kind, l), List.mem_filter.mpr ⟨hin, decide_eq_true rfl⟩, rfl⟩

/-- A listener that alone waits for an event may stand there more than once. -/
theorem Sound.listeners_alone (hr : r.Sound) (hl : r.Heard h kind l)
    (hlast : ∀ q ∈ r.subscriptions, q.widget.slot = h.slot → q.widget = h)
    (honly : ∀ m ∈ r.listeners h kind, m = l) :
    ∃ ls, r.listeners h kind = l :: ls ∧ ∀ m ∈ ls, m = l := by
  obtain ⟨m, ls, hls⟩ := List.exists_cons_of_ne_nil (List.ne_nil_of_mem (hr.mem_listeners hl hlast))
  rw [hls] at honly ⊢
  exact ⟨ls, by rw [honly m List.mem_cons_self], fun k hk => honly k (List.mem_cons_of_mem m hk)⟩

/-! ## Listeners that stand once -/

/-- Of these listeners none stands twice for one event of a widget. -/
def Once (P : Listener → Bool) (r : Router) : Prop :=
  ∀ q ∈ r.subscriptions, (q.listeners.filter fun e => P e.2).Nodup

section Once

variable {P : Listener → Bool}

/-- A new listener stands alone, or last of those of the same widget. -/
theorem subscribe_cases {entry : EventKind × Listener} {ss : List Subscription}
    {q : Subscription} (hq : q ∈ subscribe h entry ss) :
    q ∈ ss ∨ q.listeners = [entry] ∨ ∃ p ∈ ss, q.listeners = p.listeners ++ [entry] := by
  induction ss with
  | nil =>
    rw [subscribe, List.mem_singleton] at hq
    exact .inr (.inl (hq ▸ rfl))
  | cons s ss ih =>
    have hrest (hin : q ∈ ss) : q ∈ s :: ss := List.mem_cons_of_mem s hin
    unfold subscribe at hq
    split_ifs at hq
    · rcases List.mem_cons.mp hq with rfl | hq
      · exact .inr (.inr ⟨s, List.mem_cons_self, rfl⟩)
      · exact .inl (hrest hq)
    · rcases List.mem_cons.mp hq with rfl | hq
      · exact .inr (.inl rfl)
      · exact .inl (hrest hq)
    · exact .inl hq
    · rcases List.mem_cons.mp hq with rfl | hq
      · exact .inl List.mem_cons_self
      · exact (ih hq).imp hrest <| Or.imp id fun ⟨p, hp, he⟩ =>
          ⟨p, List.mem_cons_of_mem s hp, he⟩

theorem on_cases {q : Subscription} (hq : q ∈ (r.on h kind l).subscriptions) :
    q ∈ r.subscriptions ∨ q.listeners = [(kind, l)] ∨
      ∃ p ∈ r.subscriptions, q.listeners = p.listeners ++ [(kind, l)] := by
  unfold on at hq
  split at hq
  · exact .inl hq
  · exact subscribe_cases hq

theorem Once.on (hr : r.Once P)
    (hnew : P l = true → ∀ q ∈ r.subscriptions, (kind, l) ∉ q.listeners) :
    (r.on h kind l).Once P := by
  intro q hq
  rcases on_cases hq with hold | he | ⟨p, hp, he⟩
  · exact hr q hold
  · rw [he]
    exact (List.nodup_singleton _).filter _
  · rw [he, List.filter_append]
    refine (hr p hp).append ((List.nodup_singleton _).filter _) fun e hold hadd => ?_
    obtain ⟨hadd, hPe⟩ := List.mem_filter.mp hadd
    rw [List.mem_singleton.mp hadd] at hold hPe
    exact hnew hPe p hp (List.mem_filter.mp hold).1

/-- A listener that stood nowhere stands once for each of the events. -/
theorem Once.onAll (hr : r.Once P) {kinds : List EventKind}
    (hnew : P l = true → kinds.Nodup ∧
      ∀ kind ∈ kinds, ∀ q ∈ r.subscriptions, (kind, l) ∉ q.listeners) :
    (r.onAll h kinds l).Once P := by
  induction kinds generalizing r with
  | nil => exact hr
  | cons kind kinds ih =>
    refine ih (hr.on fun hl => (hnew hl).2 kind List.mem_cons_self) fun hl => ?_
    obtain ⟨hkind, hkinds⟩ := List.nodup_cons.mp (hnew hl).1
    refine ⟨hkinds, fun other hother q hq => ?_⟩
    have hold := (hnew hl).2 other (List.mem_cons_of_mem kind hother)
    have hne : (other, l) ≠ (kind, l) := by
      rintro he
      exact hkind ((Prod.mk.inj he).1 ▸ hother)
    rcases on_cases hq with hin | he | ⟨p, hp, he⟩
    · exact hold q hin
    · rw [he]
      simpa using hne
    · rw [he, List.mem_append, not_or]
      exact ⟨hold p hp, by simpa using hne⟩

theorem heard_onAll {kinds : List EventKind} (hg : h.generation ≠ 0) (hk : kind ∈ kinds) :
    (r.onAll h kinds l).Heard h kind l := by
  induction kinds generalizing r with
  | nil => cases hk
  | cons other kinds ih =>
    rcases List.mem_cons.mp hk with rfl | hk
    · exact (onAll_keeps _ h kinds l).heard h kind l (heard_on hg)
    · exact ih hk

/-- The only listener that an event can have is the only one that it has. -/
theorem Sound.listeners_eq (hr : r.Sound) (ho : r.Once P) (hP : P l = true)
    (hl : r.Heard h kind l)
    (hlast : ∀ q ∈ r.subscriptions, q.widget.slot = h.slot → q.widget = h)
    (honly : ∀ m ∈ r.listeners h kind, m = l) : r.listeners h kind = [l] := by
  have hmem := hr.mem_listeners hl hlast
  have hentry : ∀ e ∈ (r.all h).filter fun e => e.1 = kind, e = (kind, l) := fun e he =>
    Prod.ext (of_decide_eq_true (List.mem_filter.mp he).2) (honly e.2 (List.mem_map_of_mem he))
  have hnodup : ((r.all h).filter fun e => e.1 = kind).Nodup := by
    have hall : ((r.all h).filter fun e => P e.2).Nodup := by
      unfold all
      cases hfind : r.subscriptions.find? fun q => q.widget = h with
      | none => exact List.nodup_nil
      | some q => exact ho q (List.mem_of_find?_eq_some hfind)
    have hsame : ((r.all h).filter fun e => P e.2).filter (fun e => e.1 = kind) =
        (r.all h).filter fun e => e.1 = kind := by
      rw [List.filter_filter]
      refine List.filter_congr fun e he => ?_
      by_cases hk : e.1 = kind
      · have hin := hentry e (List.mem_filter.mpr ⟨he, decide_eq_true hk⟩)
        simp [hin, hP]
      · simp [hk]
    exact hsame ▸ hall.filter _
  rw [listeners] at hmem ⊢
  rw [List.eq_replicate_of_mem hentry] at hmem hnodup ⊢
  have hlength := List.nodup_replicate.mp hnodup
  rw [List.map_replicate] at hmem ⊢
  have hpos := List.ne_nil_of_mem hmem
  rw [ne_eq, List.replicate_eq_nil_iff] at hpos
  rw [show (List.filter (fun e => decide (e.1 = kind)) (r.all h)).length = 1 by omega]
  rfl

end Once

end Router

end ScreenMarkup
