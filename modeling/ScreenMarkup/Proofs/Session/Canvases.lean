import ScreenMarkup.Proofs.Session.Naming

/-!
# Canvases by id

An id may name several controls. Drawing looks for the first of them that has
a canvas, reading takes the first of them and then its canvas. The two meet in
one control unless a control without a canvas comes first. In a document that
tells its elements apart they always meet.
-/

set_option autoImplicit false

namespace ScreenMarkup.Session

variable {s t : Session} {id : String} {i : Nat} {draw : Canvas → Canvas}

def canvasAt? (s : Session) (i : Nat) : Option Canvas := s.controls[i]?.bind (·.canvas)

/-- The position of the control that an operation on an id draws on. -/
def drawnAt? (s : Session) (id : String) : Option Nat :=
  List.findIdx? (fun c : Control => c.id = id && c.canvas.isSome) s.controls

/-- The position of the control whose canvas is read for an id. -/
def readAt? (s : Session) (id : String) : Option Nat :=
  (s.controls.index? id).filter fun i => (s.canvasAt? i).isSome

theorem canvasAt?_of_getElem? {c : Control} (hc : s.controls[i]? = some c) :
    s.canvasAt? i = c.canvas := by
  rw [canvasAt?, hc, Option.bind_some]

/-! ## Reading -/

theorem canvas?_eq (s : Session) (id : String) :
    s.canvas? id = (s.readAt? id).bind s.canvasAt? := by
  have hcontrol : s.control? id = (s.controls.index? id).bind (s.controls[·]?) :=
    List.find?_eq_bind_findIdx?_getElem?
  rw [canvas?, hcontrol, readAt?]
  cases s.controls.index? id with
  | none => rfl
  | some i =>
    show s.canvasAt? i = _
    cases hc : s.canvasAt? i with
    | none => simp [Option.filter, hc]
    | some c => simp [Option.filter, hc]

theorem isSome_readAt? : (s.readAt? id).isSome = (s.canvas? id).isSome := by
  rw [canvas?_eq]
  cases hr : s.readAt? id with
  | none => rfl
  | some i => exact (Option.filter_eq_some_iff.mp hr).2.symm

/-- What is read first is what is drawn on. -/
theorem drawnAt?_of_readAt? (hr : s.readAt? id = some i) : s.drawnAt? id = some i := by
  obtain ⟨hi, hcanvas⟩ := Option.filter_eq_some_iff.mp hr
  obtain ⟨hlt, hid, hbefore⟩ := List.findIdx?_eq_some_iff_getElem.mp hi
  rw [canvasAt?_of_getElem? (List.getElem?_eq_getElem hlt)] at hcanvas
  refine List.findIdx?_eq_some_iff_getElem.mpr ⟨hlt, by simp [of_decide_eq_true hid, hcanvas], ?_⟩
  intro j hj
  have hne := hbefore j hj
  simp_all

/-! ## Drawing -/

theorem isSome_drawnAt? :
    (s.drawnAt? id).isSome = true ↔ ∃ c ∈ s.controls, c.id = id ∧ c.canvas.isSome = true := by
  simp [drawnAt?, List.findIdx?_isSome]

theorem canvasAt?_drawnAt? (hi : s.drawnAt? id = some i) : ∃ c, s.canvasAt? i = some c := by
  obtain ⟨hlt, hc, -⟩ := List.findIdx?_eq_some_iff_getElem.mp hi
  rw [canvasAt?_of_getElem? (List.getElem?_eq_getElem hlt)]
  exact Option.isSome_iff_exists.mp (Bool.and_eq_true_iff.mp hc).2

/-- Drawing succeeds where there is a canvas, and changes nothing of the controls but this canvas. -/
theorem onCanvas_cases (s : Session) (id : String) (draw : Canvas → Canvas) :
    (s.drawnAt? id = none ∧ s.onCanvas id draw = (.error (.unknownCanvas id), s)) ∨
    ∃ i t, s.drawnAt? id = some i ∧ s.onCanvas id draw = (.ok (), t) ∧
      t.controls = s.controls.modify i fun c => { c with canvas := c.canvas.map draw } := by
  unfold onCanvas
  split
  · next hn => exact .inl ⟨hn, rfl⟩
  · next i hi =>
    obtain ⟨hlt, -⟩ := List.findIdx?_eq_some_iff_getElem.mp hi
    rw [List.getElem?_eq_getElem hlt]
    exact .inr ⟨i, _, hi, rfl, rfl⟩

theorem onCanvas_ok_iff : (s.onCanvas id draw).1 = .ok () ↔ (s.drawnAt? id).isSome = true := by
  rcases s.onCanvas_cases id draw with ⟨hn, he⟩ | ⟨i, t, hi, he, -⟩
  · simp [hn, he]
  · simp [hi, he]

theorem canvasAt?_modify
    (ht : t.controls = s.controls.modify i fun c => { c with canvas := c.canvas.map draw })
    (j : Nat) : t.canvasAt? j = if i = j then (s.canvasAt? j).map draw else s.canvasAt? j := by
  rw [canvasAt?, canvasAt?, ht, List.getElem?_modify]
  split
  · cases s.controls[j]? <;> rfl
  · cases s.controls[j]? <;> rfl

theorem index?_modify {f : Control → Control} (hf : ∀ c, (f c).wiring = c.wiring)
    (cs : Controls) (i : Nat) : Controls.index? (cs.modify i f) id = cs.index? id := by
  have hindex (cs : Controls) : cs.index? id = (cs.map Control.wiring).findIdx? (·.id = id) := by
    rw [List.findIdx?_map]
    rfl
  rw [hindex, hindex, wiring_modify hf]

/-- Which control is read does not depend on what is drawn. -/
theorem readAt?_modify
    (ht : t.controls = s.controls.modify i fun c => { c with canvas := c.canvas.map draw }) :
    t.readAt? id = s.readAt? id := by
  have hindex : t.controls.index? id = s.controls.index? id := by
    rw [ht]
    exact index?_modify (f := fun c => { c with canvas := c.canvas.map draw }) (fun _ => rfl) _ i
  have hcanvas (j : Nat) : (t.canvasAt? j).isSome = (s.canvasAt? j).isSome := by
    rw [canvasAt?_modify ht]
    split <;> simp
  simp only [readAt?, hindex, hcanvas]

/-! ## The two lookups -/

/-- There is a canvas to read exactly when there is one to refresh, and after every operation that
draws, the canvas that is read is the one it drew on. -/
structure CanvasesAgree (s : Session) (id : String) : Prop where
  refresh : (s.canvas? id).isSome = true ↔ (s.onCanvas id fun c => c).1 = .ok ()
  draws : ∀ (draw : Canvas → Canvas) (t : Session), s.onCanvas id draw = (.ok (), t) →
    ∃ i c, s.drawnAt? id = some i ∧ s.canvasAt? i = some c ∧ t.canvasAt? i = some (draw c) ∧
      t.readAt? id = some i ∧ t.canvas? id = some (draw c)

/-- The first control with an id has a canvas if any control with the id has one. -/
def CanvasFirst (s : Session) (id : String) : Prop :=
  (∃ c ∈ s.controls, c.id = id ∧ c.canvas.isSome = true) →
    ∃ c, s.control? id = some c ∧ c.canvas.isSome = true

theorem canvasFirst_iff : s.CanvasFirst id ↔ s.readAt? id = s.drawnAt? id := by
  have hread : (∃ c, s.control? id = some c ∧ c.canvas.isSome = true) ↔
      (s.readAt? id).isSome = true := by
    rw [isSome_readAt?, canvas?]
    cases s.control? id <;> simp
  rw [CanvasFirst, hread, ← isSome_drawnAt?]
  constructor
  · intro h
    cases hd : s.drawnAt? id with
    | none =>
      cases hr : s.readAt? id with
      | none => rfl
      | some i => rw [drawnAt?_of_readAt? hr] at hd; cases hd
    | some i =>
      obtain ⟨j, hj⟩ := Option.isSome_iff_exists.mp (h (by rw [hd]; rfl))
      rw [hj, ← hd, drawnAt?_of_readAt? hj]
  · intro h hd
    rwa [h]

theorem CanvasFirst.agree (hs : s.CanvasFirst id) : s.CanvasesAgree id where
  refresh := by
    rw [← isSome_readAt?, canvasFirst_iff.mp hs, onCanvas_ok_iff]
  draws draw t he := by
    rcases s.onCanvas_cases id draw with ⟨-, he'⟩ | ⟨i, t', hi, he', ht⟩
    · rw [he] at he'
      cases he'
    · rw [he] at he'
      cases he'
      obtain ⟨c, hc⟩ := canvasAt?_drawnAt? hi
      have hdrawn : t.canvasAt? i = some (draw c) := by
        rw [canvasAt?_modify ht, if_pos rfl, hc, Option.map_some]
      have hread : t.readAt? id = some i := by
        rw [readAt?_modify ht, canvasFirst_iff.mp hs, hi]
      refine ⟨i, c, hi, hc, hdrawn, hread, ?_⟩
      rw [canvas?_eq, hread, Option.bind_some, hdrawn]

/-- Either half of the agreement fails when a control without a canvas comes first. -/
theorem canvasesAgree_iff : s.CanvasesAgree id ↔ s.CanvasFirst id := by
  refine ⟨fun h => ?_, CanvasFirst.agree⟩
  have hboth : (s.readAt? id).isSome = true ↔ (s.drawnAt? id).isSome = true := by
    rw [isSome_readAt?, h.refresh, onCanvas_ok_iff]
  rw [canvasFirst_iff]
  cases hr : s.readAt? id with
  | none => simp_all
  | some i => rw [drawnAt?_of_readAt? hr]

/-- Ids that are told apart name one control each. -/
theorem canvasFirst_of_nodup (hn : (s.controls.map (·.id)).Nodup) : s.CanvasFirst id := by
  rintro ⟨c, hc, hid, hcanvas⟩
  have hfound : (s.control? id).isSome = true :=
    List.find?_isSome.mpr ⟨c, hc, decide_eq_true hid⟩
  obtain ⟨d, hd⟩ := Option.isSome_iff_exists.mp hfound
  have hdid : d.id = id :=
    of_decide_eq_true (List.find?_some (p := fun c : Control => decide (c.id = id)) hd)
  have he : d = c := List.inj_on_of_nodup_map hn (List.mem_of_find?_eq_some hd) hc
    (hdid.trans hid.symm)
  exact ⟨d, hd, he ▸ hcanvas⟩

/-- Whatever was rendered and done before, reading and drawing agree on an id exactly when the first
control with the id has a canvas, if any has one. They agree on all ids of a document that tells its
elements apart. -/
theorem canvases_agree_iff (config : Config) (os : List Operation) :
    let s := (new config).after os
    (∀ id, s.CanvasesAgree id ↔ s.CanvasFirst id) ∧
    ∀ markup, (Markup.parse markup).DistinctIds →
      ∀ id, (s.clear.render markup).CanvasesAgree id := by
  intro s
  refine ⟨fun id => canvasesAgree_iff, fun markup hd id => ?_⟩
  exact (canvasFirst_of_nodup (registered_ids_distinct s markup hd)).agree

/-- A drawing stands beside a text. -/
theorem canvases_agree_of_drawing :
    let markup := "<label id='t'>x</label><canvas id='c' w='2' h='1'/>"
    let s := ((new {}).after []).clear.render markup
    (Markup.parse markup).DistinctIds ∧ (s.canvas? "c").isSome = true ∧ s.CanvasesAgree "c" := by
  intro markup s
  have hd : (Markup.parse markup).DistinctIds := by decide +kernel
  exact ⟨hd, by decide +kernel, (canvases_agree_iff {} []).2 markup hd "c"⟩

/-- A text with the id of a drawing hides it from reading only. -/
theorem not_canvases_agree :
    let s := (new {}).after [.render "<label id='x'/><canvas id='x' w='2' h='1'/>"]
    s.canvas? "x" = none ∧ (s.onCanvas "x" fun c => c).1 = .ok () ∧ ¬ s.CanvasesAgree "x" := by
  intro s
  have hnone : (s.canvas? "x").isSome = false := by decide +kernel
  have hok : (s.onCanvas "x" fun c => c).1 = .ok () := by decide +kernel
  refine ⟨Option.not_isSome_iff_eq_none.mp (by simp [hnone]), hok, fun h => ?_⟩
  have hread := h.refresh.mpr hok
  rw [hnone] at hread
  cases hread

end ScreenMarkup.Session
