import Mathlib.Data.List.Flatten
import Mathlib.Data.List.Nodup
import Mathlib.Data.List.Perm.Subperm
import ScreenMarkup.Control.Basic
import ScreenMarkup.Document.Head

/-!
# The ids of a document

A document may give ids to its widgets, pages and groups. What a rendering
builds as widgets stands below the groups and pages, and so each widget of the
document is built at most once.
-/

set_option autoImplicit false

namespace ScreenMarkup

variable {e g : Element} {es : List Element} {id : String}

/-- A part of a list, in any order, leads to a part of the results. -/
theorem subperm_filterMap {α β : Type} {as bs : List α} (h : as.Subperm bs) (f : α → Option β) :
    (as.filterMap f).Subperm (bs.filterMap f) := by
  obtain ⟨cs, hperm, hsub⟩ := h
  exact ⟨cs.filterMap f, hperm.filterMap f, hsub.filterMap f⟩

theorem nodup_of_subperm {α : Type} {as bs : List α} (h : as.Subperm bs) (hb : bs.Nodup) :
    as.Nodup := by
  obtain ⟨cs, hperm, hsub⟩ := h
  exact hperm.nodup_iff.mp (hb.sublist hsub)

/-- An id as a list, which is empty if the id is. -/
def spelled (id : String) : List String := if id = "" then [] else [id]

namespace Element

/-- The ids that some elements are given. -/
def writtenIds (es : List Element) : List String := es.filterMap (·.given? "id")

def isWidget (e : Element) : Bool := (ControlKind.ofTag? e.tag).isSome

/-- The widgets among what stands below an element. -/
def widgets (e : Element) : List Element := e.descendants.filter isWidget

/-- The ids that are given to widgets among some elements and what stands below them. -/
def widgetIds (es : List Element) : List String := writtenIds ((listing es).filter isWidget)

def layout (e : Element) : Layout := Layout.ofElements e.children

/-- The ids of the tiles of a group. Without an id it has none. -/
def tileIds (group : Element) : List String :=
  (writtenIds [group]).flatMap fun id =>
    (writtenIds (group.findAll "page")).map (id ++ "/" ++ ·)

theorem given?_eq (e : Element) (name : String) :
    e.given? name = if e.attr name = "" then none else some (e.attr name) := by
  unfold given? attr attrD
  cases e.attr? name with
  | none => rfl
  | some v => by_cases hv : v = "" <;> simp [hv]

theorem writtenIds_singleton (e : Element) : writtenIds [e] = spelled (e.attr "id") := by
  by_cases hid : e.attr "id" = "" <;> simp [writtenIds, given?_eq, spelled, hid]

theorem writtenIds_append (ds es : List Element) :
    writtenIds (ds ++ es) = writtenIds ds ++ writtenIds es := List.filterMap_append

theorem flatMap_writtenIds (es : List Element) :
    (es.flatMap fun e => writtenIds [e]) = writtenIds es := by
  induction es with
  | nil => rfl
  | cons e es ih => rw [List.flatMap_cons, ih, ← writtenIds_append, List.singleton_append]

theorem writtenIds_eq (es : List Element) :
    writtenIds es = (es.filter fun e => e.attr "id" ≠ "").map (·.attr "id") := by
  induction es with
  | nil => rfl
  | cons e es ih =>
    rw [← List.singleton_append, writtenIds_append, writtenIds_singleton, spelled, ih]
    by_cases he : e.attr "id" = "" <;> simp [he]

theorem mem_writtenIds : id ∈ writtenIds es ↔ ∃ e ∈ es, e.given? "id" = some id :=
  List.mem_filterMap

theorem ne_empty_of_given? {name v : String} (h : e.given? name = some v) : v ≠ "" := by
  rw [given?_eq] at h
  split at h <;> cases h
  assumption

theorem widgetIds_cons (e : Element) (es : List Element) :
    widgetIds (e :: es) = widgetIds [e] ++ widgetIds es := by
  unfold widgetIds
  rw [← writtenIds_append, ← List.filter_append, listing, listing, listing, List.append_nil,
    List.cons_append]

theorem widgetIds_widget {kind : ControlKind} (hk : ControlKind.ofTag? e.tag = some kind) :
    widgetIds [e] = writtenIds [e] ++ widgetIds e.children := by
  have he : e.isWidget = true := by rw [isWidget, hk, Option.isSome_some]
  unfold widgetIds
  rw [listing, listing, List.append_nil, descendants_eq, List.filter_cons_of_pos he,
    ← List.singleton_append, writtenIds_append]

theorem widgetIds_children (e : Element) : (widgetIds e.children).Sublist (widgetIds [e]) := by
  unfold widgetIds
  rw [listing, listing, List.append_nil, descendants_eq]
  exact ((List.sublist_cons_self e _).filter _).filterMap _

/-! ## What stands below -/

theorem flatMap_descendants_sublist (es : List Element) :
    (es.flatMap descendants).Sublist (listing es) := by
  induction es with
  | nil => exact .slnil
  | cons e es ih =>
    rw [List.flatMap_cons, listing]
    exact ((List.Sublist.refl _).append ih).cons e

theorem child_sublist (he : e ∈ es) : e.descendants.Sublist (listing es) := by
  have hone := (List.singleton_sublist.mpr he).flatMap descendants
  rw [List.flatMap_singleton] at hone
  exact hone.trans (flatMap_descendants_sublist es)

/-- The pages of a group do not share what stands below them. -/
theorem findAll_sublist (g : Element) (tag : String) :
    ((g.findAll tag).flatMap descendants).Sublist g.descendants := by
  rw [descendants_eq]
  exact (List.filter_sublist.flatMap descendants).trans (flatMap_descendants_sublist g.children)

theorem find?_sublist (e : Element) (tag : String) :
    ((e.find? tag).getD e).descendants.Sublist e.descendants := by
  cases hf : e.find? tag with
  | none => exact .refl _
  | some c =>
    rw [descendants_eq e]
    exact child_sublist (List.mem_of_find?_eq_some hf)

end Element

namespace Layout

open Element (descendants listing)

/-- What stands below the groups and pages. -/
def below (l : Layout) : List Element := l.groups.flatMap descendants ++ l.pages.flatMap descendants

theorem below_append (a b : Layout) : (a.append b).below.Perm (a.below ++ b.below) := by
  simp only [below, append, List.flatMap_append, List.append_assoc]
  exact (List.perm_append_comm_assoc _ _ _).append_left _

mutual
/-- Groups and pages do not share what stands below them, since none is inside another. -/
theorem below_ofElement : (e : Element) → (ofElement e).below.Subperm e.descendants
  | ⟨tag, attrs, text, children, inner⟩ => by
    rw [ofElement]
    split
    · exact (List.Perm.of_eq (by simp [below])).subperm
    · split
      · exact (List.Perm.of_eq (by simp [below])).subperm
      · exact below_ofElements children
theorem below_ofElements : (es : List Element) → (ofElements es).below.Subperm (listing es)
  | [] => List.nil_subperm
  | e :: es => by
    rw [ofElements, listing]
    have hparts := (below_ofElement e).append (below_ofElements es)
    exact ((below_append _ _).subperm.trans hparts).trans (List.sublist_cons_self e _).subperm
end

end Layout

namespace Element

/-- The pages and tiles of a document do not share what stands below them. -/
theorem below_layout (doc : Element) :
    ((doc.layout.groups.flatMap (·.findAll "page") ++ doc.layout.pages).flatMap
      descendants).Subperm doc.descendants := by
  have htiles : ((doc.layout.groups.flatMap (·.findAll "page")).flatMap descendants).Sublist
      (doc.layout.groups.flatMap descendants) := by
    rw [List.flatMap_assoc]
    exact List.Sublist.flatMap_right _ fun g _ => findAll_sublist g "page"
  rw [List.flatMap_append, descendants_eq]
  exact (htiles.append_right _).subperm.trans (Layout.below_ofElements doc.children)

/-! ## Distinct ids -/

/-- It is neither like a generated id nor like that of a tile. -/
def IsPlain (id : String) : Prop := id.toList.head? ≠ some '_' ∧ '/' ∉ id.toList

instance : DecidablePred IsPlain := fun _ => inferInstanceAs (Decidable (_ ∧ _))

/-- The widgets, the pages and the groups of a document. The pages inside of groups are not among
them. -/
def bearers (doc : Element) : List Element := doc.widgets ++ doc.layout.pages ++ doc.layout.groups

/-- No two widgets, pages or groups are given the same id, and no two pages of a group are. -/
structure DistinctIds (doc : Element) : Prop where
  apart : (writtenIds doc.bearers).Nodup
  tiles : ∀ g ∈ doc.layout.groups, (writtenIds (g.findAll "page")).Nodup
  plain : ∀ id ∈ writtenIds doc.bearers, IsPlain id
  plain_tiles : ∀ g ∈ doc.layout.groups, ∀ id ∈ writtenIds (g.findAll "page"), IsPlain id

instance (doc : Element) : Decidable doc.DistinctIds :=
  decidable_of_iff ((writtenIds doc.bearers).Nodup ∧
      (∀ g ∈ doc.layout.groups, (writtenIds (g.findAll "page")).Nodup) ∧
      (∀ id ∈ writtenIds doc.bearers, IsPlain id) ∧
      ∀ g ∈ doc.layout.groups, ∀ id ∈ writtenIds (g.findAll "page"), IsPlain id)
    ⟨fun ⟨ha, ht, hp, hq⟩ => ⟨ha, ht, hp, hq⟩, fun ⟨ha, ht, hp, hq⟩ => ⟨ha, ht, hp, hq⟩⟩

/-- The ids of a document: those that are written, and those of its tiles. -/
def ids (doc : Element) : List String :=
  writtenIds doc.bearers ++ doc.layout.groups.flatMap tileIds

theorem mem_tileIds : id ∈ g.tileIds ↔ ∃ i, g.given? "id" = some i ∧
    ∃ p ∈ writtenIds (g.findAll "page"), id = i ++ "/" ++ p := by
  simp only [tileIds, List.mem_flatMap, List.mem_map, mem_writtenIds, List.mem_singleton,
    exists_eq_left, @eq_comm _ id]

theorem toList_tileId (i p : String) : (i ++ "/" ++ p).toList = i.toList ++ '/' :: p.toList := by
  simp

/-- A tile tells its group and its page. -/
theorem tileId_inj {i j p q : String} (hi : '/' ∉ i.toList) (hp : '/' ∉ p.toList)
    (h : i ++ "/" ++ p = j ++ "/" ++ q) : i = j ∧ p = q := by
  have hl := congrArg String.toList h
  rw [toList_tileId, toList_tileId] at hl
  obtain ⟨hij, -, hpq⟩ := (List.append_cons_inj_of_notMem hi hp).mp hl
  exact ⟨String.toList_inj.mp hij, String.toList_inj.mp hpq⟩

theorem tileIds_nodup (h : (writtenIds (g.findAll "page")).Nodup) : g.tileIds.Nodup := by
  rw [tileIds, writtenIds_singleton, spelled]
  split
  · exact List.nodup_nil
  · rw [List.flatMap_singleton]
    refine h.map fun p q hpq => ?_
    exact (String.append_right_inj _).mp hpq

namespace DistinctIds

variable {doc : Element} (hd : doc.DistinctIds)

include hd

theorem plain_group (hg : g ∈ doc.layout.groups) (hid : g.given? "id" = some id) : IsPlain id :=
  hd.plain id (mem_writtenIds.mpr ⟨g, List.mem_append_right _ hg, hid⟩)

/-- Two groups with different ids share no id of a tile. -/
theorem nodup_tiles : (doc.layout.groups.flatMap tileIds).Nodup := by
  refine List.nodup_flatMap.mpr ⟨fun g hg => tileIds_nodup (hd.tiles g hg), ?_⟩
  have hgroups := hd.apart
  rw [bearers, writtenIds_append] at hgroups
  have hpairs := List.pairwise_filterMap.mp (List.nodup_append.mp hgroups).2.1
  refine hpairs.imp_of_mem fun {a b} ha hb hne x hxa hxb => ?_
  obtain ⟨i, hi, p, hp, hx⟩ := mem_tileIds.mp hxa
  obtain ⟨j, hj, q, hq, hx'⟩ := mem_tileIds.mp hxb
  obtain ⟨hij, -⟩ := tileId_inj (hd.plain_group ha hi).2 (hd.plain_tiles a ha p hp).2
    (hx.symm.trans hx')
  exact hne i hi j hj hij

theorem nodup : doc.ids.Nodup := by
  refine List.nodup_append.mpr ⟨hd.apart, hd.nodup_tiles, fun id hid t ht he => ?_⟩
  obtain ⟨g, -, ht⟩ := List.mem_flatMap.mp ht
  obtain ⟨i, -, p, -, rfl⟩ := mem_tileIds.mp ht
  apply (hd.plain id hid).2
  rw [he, toList_tileId]
  exact List.mem_append_right _ List.mem_cons_self

/-- The id of a tile starts like that of its group. -/
theorem head_ne (hid : id ∈ doc.ids) : id.toList.head? ≠ some '_' := by
  rcases List.mem_append.mp hid with hid | hid
  · exact (hd.plain id hid).1
  · obtain ⟨g, hg, hid⟩ := List.mem_flatMap.mp hid
    obtain ⟨i, hi, p, -, rfl⟩ := mem_tileIds.mp hid
    have hne : i.toList ≠ [] := fun he =>
      ne_empty_of_given? hi (String.toList_eq_nil_iff.mp he)
    rw [toList_tileId, List.head?_append_of_ne_nil _ hne]
    exact (hd.plain_group hg hi).1

end DistinctIds
end Element
end ScreenMarkup
