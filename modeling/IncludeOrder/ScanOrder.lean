import IncludeOrder.Path

/-!
# The order of a run

A run scans the probable headers before everything else, so that a header is registered by the time
a source that includes it is scanned.  Inside both groups the order given is kept: the order of a
run is a stable partition of its paths, and nothing is lost or repeated (`perm_headersFirst`).
-/

set_option autoImplicit false

namespace IncludeOrder

/-- Items in the order their paths are scanned: the probable headers, then the others. -/
def headersFirst {α : Type} (path : α → Path) (items : List α) : List α :=
  items.filter (fun item => (path item).isProbableHeader)
    ++ items.filter (fun item => !(path item).isProbableHeader)

/-- Paths in the order they are scanned. -/
def scanOrder (paths : List Path) : List Path := headersFirst id paths

theorem perm_headersFirst {α : Type} (path : α → Path) (items : List α) :
    (headersFirst path items).Perm items :=
  List.filter_append_perm (fun item => (path item).isProbableHeader) items

theorem perm_scanOrder (paths : List Path) : (scanOrder paths).Perm paths :=
  perm_headersFirst id paths

theorem filter_headersFirst {α : Type} (path : α → Path) (items : List α) :
    (headersFirst path items).filter (fun item => (path item).isProbableHeader)
      = items.filter (fun item => (path item).isProbableHeader) := by
  simp [headersFirst, List.filter_filter]

theorem filter_not_headersFirst {α : Type} (path : α → Path) (items : List α) :
    (headersFirst path items).filter (fun item => !(path item).isProbableHeader)
      = items.filter (fun item => !(path item).isProbableHeader) := by
  simp [headersFirst, List.filter_filter]

/-- The order of a run depends on each group alone, so ordering twice changes nothing. -/
theorem headersFirst_headersFirst {α : Type} (path : α → Path) (items : List α) :
    headersFirst path (headersFirst path items) = headersFirst path items := by
  rw [headersFirst, filter_headersFirst, filter_not_headersFirst, headersFirst]

/-- What is left of an order of a run when items are taken out is again the order of a run. -/
theorem headersFirst_of_sublist {α : Type} {path : α → Path} {items part : List α}
    (h : part.Sublist (headersFirst path items)) : headersFirst path part = part := by
  obtain ⟨headers, others, rfl, hheaders, hothers⟩ := List.sublist_append_iff.mp h
  have hfirst : ∀ item ∈ headers, (path item).isProbableHeader = true := fun item hitem =>
    (List.mem_filter.mp (hheaders.subset hitem)).2
  have hlast : ∀ item ∈ others, (path item).isProbableHeader = false := fun item hitem => by
    simpa using (List.mem_filter.mp (hothers.subset hitem)).2
  simp only [headersFirst, List.filter_append]
  rw [List.filter_eq_self.mpr hfirst, List.filter_eq_nil_iff.mpr (by simpa using hlast),
    List.filter_eq_nil_iff.mpr (by simpa using hfirst),
    List.filter_eq_self.mpr (by simpa using hlast)]
  simp

/-- Items are taken out of a list and out of its order alike. -/
theorem headersFirst_filter {α : Type} (path : α → Path) (keep : α → Bool) (items : List α) :
    headersFirst path (items.filter keep) = (headersFirst path items).filter keep := by
  simp only [headersFirst, List.filter_append, List.filter_filter, Bool.and_comm]

end IncludeOrder
