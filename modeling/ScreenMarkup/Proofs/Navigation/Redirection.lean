import ScreenMarkup.Proofs.Navigation.Choices

/-!
# Where redirections end

A group leads on to one of its pages. As the path to it names the group, it
leads nowhere else, unless the group has no name: then the name of the page
alone is left, and it may be the name of another group. A group without a name
that opens with a page without a name leads on to itself for ever. Every other
chain of redirections comes to an end, after two of them at the latest.
-/

set_option autoImplicit false

namespace ScreenMarkup.Navigation

variable {n : Navigation} {s : Screen} {path next : String} {paths : List String} {k : Nat}

/-! ## Chains -/

/-- A path with those that it leads on to, up to one that does not lead on. -/
inductive Chain (n : Navigation) : String → List String → Prop
  | rest {path : String} (still : n.redirect? path = none) : Chain n path [path]
  | lead {path next : String} {paths : List String} (on : n.redirect? path = some next)
      (more : Chain n next paths) : Chain n path (path :: paths)

/-- The path to which a number of redirections lead. -/
def led? (n : Navigation) : Nat → String → Option String
  | 0, path => some path
  | k + 1, path => (n.redirect? path).bind (n.led? k)

/-- Following a path ends exactly when the chain of its redirections does. -/
theorem chain?_eq_some : n.chain? path = some paths ↔ n.Chain path paths := by
  constructor
  · refine chain?.partial_correctness n (fun path paths => n.Chain path paths) ?_ path paths
    intro chain ih path paths h
    split at h
    · next next hn =>
      obtain ⟨more, hm, hp⟩ := Option.bind_eq_some_iff.mp h
      cases hp
      exact .lead hn (ih next more hm)
    · next hn =>
      cases h
      exact .rest hn
  · intro h
    induction h with
    | rest still => rw [chain?, still]
    | lead on _ ih =>
      rw [chain?, on]
      simp [ih]

theorem exists_chain_of_led? (hk : n.led? k path = none) : ∃ paths, n.Chain path paths := by
  induction k generalizing path with
  | zero => cases hk
  | succ k ih =>
    cases hn : n.redirect? path with
    | none => exact ⟨[path], .rest hn⟩
    | some next =>
      rw [led?, hn, Option.bind_some] at hk
      obtain ⟨paths, hp⟩ := ih hk
      exact ⟨path :: paths, .lead hn hp⟩

theorem Chain.led? (h : n.Chain path paths) : n.led? paths.length path = none := by
  induction h with
  | rest still => rw [List.length_singleton, Navigation.led?, still]; rfl
  | lead on _ ih => rw [List.length_cons, Navigation.led?, on, Option.bind_some, ih]

/-- There is no answer exactly when one can be led on any number of times. -/
theorem chain?_eq_none : n.chain? path = none ↔ ∀ k, (n.led? k path).isSome = true := by
  constructor
  · intro h k
    cases hk : n.led? k path with
    | some _ => rfl
    | none =>
      obtain ⟨paths, hp⟩ := exists_chain_of_led? hk
      rw [chain?_eq_some.mpr hp] at h
      cases h
  · intro h
    cases hp : n.chain? path with
    | none => rfl
    | some paths =>
      have hend := h paths.length
      rw [(chain?_eq_some.mp hp).led?] at hend
      cases hend

/-- Counted redirections suffice if they are as many as the chain has. -/
theorem Chain.follow (h : n.Chain path paths) (hk : paths.length ≤ k + 1) :
    n.follow k path = n.direct (paths.getLastD path) := by
  induction h generalizing k with
  | rest still =>
    cases k with
    | zero => rfl
    | succ k => rw [Navigation.follow, still]; rfl
  | @lead path next paths on more ih =>
    have hpos : 0 < paths.length := by cases more <;> simp
    rw [List.length_cons] at hk
    obtain ⟨k, rfl⟩ : ∃ j, k = j + 1 := ⟨k - 1, by omega⟩
    have hlast : (path :: paths).getLastD path = paths.getLastD next := by
      obtain ⟨p, ps, rfl⟩ := List.exists_cons_of_length_pos hpos
      rw [List.getLastD_cons, List.getLastD_cons, List.getLastD_cons]
    rw [Navigation.follow, on, hlast]
    exact ih (by omega)

/-! ## What leads on -/

theorem redirect?_eq_some : n.redirect? path = some next ↔
    '/' ∉ (Text.dropSlash path).toList ∧
      ∃ g, n.group? (Text.dropSlash path) = some g ∧ next = g.id ++ "/" ++ g.landing := by
  unfold redirect?
  split
  · next h =>
    have hslash : ¬ '/' ∉ (Text.dropSlash path).toList := by
      rw [← splitPath?_eq_none, ← Option.not_isSome_iff_eq_none, h]
      simp
    simp [hslash]
  · next h =>
    have hslash : '/' ∉ (Text.dropSlash path).toList :=
      splitPath?_eq_none.mp (Option.not_isSome_iff_eq_none.mp h)
    simp [hslash, eq_comm]

theorem group?_id {id : String} {g : PageGroup} (hg : n.group? id = some g) : g.id = id := by
  simpa using List.find?_some hg

/-- What a path is for that does not lead on: a page of a group, a page, or nothing known. -/
inductive Rests (n : Navigation) (path : String) : Prop
  | tile {group page : String} (split : splitPath? (Text.dropSlash path) = some (group, page))
  | page {i : Nat} (split : splitPath? (Text.dropSlash path) = none)
      (noGroup : n.group? (Text.dropSlash path) = none)
      (index : n.pageIndex? (Text.dropSlash path) = some i)
  | unknown (split : splitPath? (Text.dropSlash path) = none)
      (noGroup : n.group? (Text.dropSlash path) = none)
      (noPage : n.pageIndex? (Text.dropSlash path) = none)

theorem rests_iff : n.Rests path ↔ n.redirect? path = none := by
  unfold redirect?
  constructor
  · rintro (⟨split⟩ | ⟨split, noGroup, -⟩ | ⟨split, noGroup, -⟩)
    · simp [split]
    · simp [split, noGroup]
    · simp [split, noGroup]
  · intro h
    cases split : splitPath? (Text.dropSlash path) with
    | some parts => exact .tile split
    | none =>
      have noGroup : n.group? (Text.dropSlash path) = none := by simpa [split] using h
      cases index : n.pageIndex? (Text.dropSlash path) with
      | some i => exact .page split noGroup index
      | none => exact .unknown split noGroup index

/-- A path without a name, which names a group that opens with a page without a name. -/
def Endless (n : Navigation) (path : String) : Prop :=
  Text.dropSlash path = "" ∧ ∃ g, n.group? "" = some g ∧ g.landing = ""

theorem Endless.redirect? (h : n.Endless path) : n.redirect? path = some "/" := by
  obtain ⟨hdrop, g, hg, hlanding⟩ := h
  refine redirect?_eq_some.mpr ⟨by simp [hdrop], g, hdrop ▸ hg, ?_⟩
  rw [group?_id hg, hlanding]
  rfl

theorem Endless.led? (h : n.Endless path) (k : Nat) : (n.led? k path).isSome = true := by
  have hagain : n.Endless "/" := ⟨by decide, h.2⟩
  induction k generalizing path with
  | zero => rfl
  | succ k ih =>
    rw [Navigation.led?, h.redirect?, Option.bind_some]
    exact ih hagain

/-- A path with a name leads on once at most. -/
theorem exists_chain_of_named (hp : Text.dropSlash path ≠ "") :
    ∃ paths, n.Chain path paths ∧ paths.length ≤ 2 := by
  cases hn : n.redirect? path with
  | none => exact ⟨[path], .rest hn, by simp⟩
  | some next =>
    obtain ⟨hslash, g, hg, rfl⟩ := redirect?_eq_some.mp hn
    have hid := group?_id hg
    rw [← hid] at hslash hp
    exact ⟨_, .lead hn (.rest (redirect?_path hslash hp)), by simp⟩

theorem exists_chain (h : ¬ n.Endless path) : ∃ paths, n.Chain path paths ∧ paths.length ≤ 3 := by
  by_cases hp : Text.dropSlash path = ""
  · cases hn : n.redirect? path with
    | none => exact ⟨[path], .rest hn, by simp⟩
    | some next =>
      obtain ⟨-, g, hg, rfl⟩ := redirect?_eq_some.mp hn
      rw [hp] at hg
      have hnext : Text.dropSlash (g.id ++ "/" ++ g.landing) = g.landing := by
        rw [group?_id hg]
        simp [Text.dropSlash]
      have hlanding : g.landing ≠ "" := fun he => h ⟨hp, g, hg, he⟩
      obtain ⟨paths, hpaths, hlength⟩ := exists_chain_of_named (n := n) (hnext.symm ▸ hlanding)
      exact ⟨path :: paths, .lead hn hpaths, by simp only [List.length_cons]; omega⟩
  · obtain ⟨paths, hpaths, hlength⟩ := exists_chain_of_named (n := n) hp
    exact ⟨paths, hpaths, by omega⟩

/-- The last path of a chain does not lead on. -/
theorem Chain.ends (h : n.Chain path paths) : ∃ before last, paths = before ++ [last] ∧
    n.Rests last := by
  induction h with
  | @rest path still => exact ⟨[], path, rfl, rests_iff.mpr still⟩
  | @lead path _ _ _ _ ih =>
    obtain ⟨before, last, rfl, hlast⟩ := ih
    exact ⟨path :: before, last, rfl, hlast⟩

/-! ## Showing -/

theorem Endless.display? (h : n.Endless path) (s : Screen) : n.display? s path = none := by
  rw [Navigation.display?, reach?, chain?_eq_none.mpr h.led?]
  rfl

theorem display?_eq (h : ¬ n.Endless path) (s : Screen) :
    n.display? s path = some (n.display s path) := by
  obtain ⟨paths, hp, hlength⟩ := exists_chain h
  rw [display?, reach?, chain?_eq_some.mpr hp, display, goal, hp.follow hlength]
  rfl

/-- Where all groups have names, showing a path always ends. -/
theorem display?_eq_of_named (hn : ∀ g ∈ n.groups, g.id ≠ "") (s : Screen) (path : String) :
    n.display? s path = some (n.display s path) := by
  refine display?_eq ?_ s
  rintro ⟨-, g, hg, -⟩
  exact hn g (List.mem_of_find?_eq_some hg) (group?_id hg)

theorem step?_eq_of_named (hn : ∀ g ∈ n.groups, g.id ≠ "") (s : Screen) (delta : Int) :
    n.step? s delta = some (n.step s delta) := by
  unfold step? step
  extract_lets next
  split
  · rfl
  · cases n.pages[next.toNat]? with
    | some p => exact display?_eq_of_named hn s _
    | none => rfl

/-- Showing a path ends, with a page of a group, a page, or nothing known, unless the path has no
name and leads to a group without a name that opens with a page without a name. -/
theorem showing_ends_iff (n : Navigation) (s : Screen) (path : String) :
    (n.display? s path = some (n.display s path) ∧
      ∃ before last, n.chain? path = some (before ++ [last]) ∧ n.Rests last) ↔
    ¬ n.Endless path := by
  constructor
  · rintro ⟨hd, -⟩ h
    rw [h.display? s] at hd
    cases hd
  · intro h
    obtain ⟨paths, hp, -⟩ := exists_chain h
    obtain ⟨before, last, rfl, hlast⟩ := hp.ends
    exact ⟨display?_eq h s, before, last, chain?_eq_some.mpr hp, hlast⟩

/-- The only group has no name and no page, and its path leads on to itself for ever. -/
theorem not_showing_ends :
    let s := Screen.new ⟨480, 320⟩
    let n := (addGroup {} s "" "" .horizontal .none ⟨480, 320⟩).2.1
    (∀ k, (n.led? k "").isSome = true) ∧ n.chain? "" = none ∧ n.display? s "" = none := by
  intro s n
  have h : n.Endless "" := ⟨by decide, _, rfl, rfl⟩
  exact ⟨h.led?, chain?_eq_none.mpr h.led?, h.display? s⟩

end ScreenMarkup.Navigation
