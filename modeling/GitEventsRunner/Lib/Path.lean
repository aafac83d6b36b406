/-
# Paths and their resolution

A path is cut at its slashes; empty segments and `.` mean nothing and `..` goes
up one folder, with the root above itself.  A relative path starts at a working
directory.  Resolution is lexical: symbolic links are not followed.

A path that continues another one resolves from where that one leads.  So what
matters about the continuation is how far it climbs above its start and where it
goes from there, and whether it stays strictly inside a folder can be read off
these two.
-/

import Mathlib.Data.List.Basic
import Mathlib.Data.Nat.Notation

namespace GitEventsRunner.Lib

namespace Path

/-- The name of one folder or file. -/
abbrev Segment := List Char

/-- The text between the slashes. -/
def segments (path : String) : List Segment := path.toList.splitOn '/'

/-- Follow one segment from a folder. -/
def follow (dir : List Segment) (segment : Segment) : List Segment :=
  if segment = [] ∨ segment = ['.'] then dir
  else if segment = ['.', '.'] then dir.dropLast
  else dir ++ [segment]

/-- Follow segments from a folder. -/
def resolveFrom (dir : List Segment) (route : List Segment) : List Segment :=
  route.foldl follow dir

/-- Where a path leads, given the working directory. -/
def resolve (cwd : List Segment) (path : String) : List Segment :=
  resolveFrom (if path.toList.head? = some '/' then [] else cwd) (segments path)

/-- A place strictly inside a folder. -/
def Inside (folder place : List Segment) : Prop :=
  folder <+: place ∧ folder.length < place.length

instance (folder place : List Segment) : Decidable (Inside folder place) :=
  inferInstanceAs (Decidable (_ ∧ _))

/-- How far a route climbs above its start, and where it goes from there. -/
structure Detour where
  ups : ℕ
  downs : List Segment

namespace Detour

/-- Add one segment to a detour. -/
def follow (detour : Detour) (segment : Segment) : Detour :=
  if segment = [] ∨ segment = ['.'] then detour
  else if segment = ['.', '.'] then
    if detour.downs = [] then { detour with ups := detour.ups + 1 }
    else { detour with downs := detour.downs.dropLast }
  else { detour with downs := detour.downs ++ [segment] }

/-- The detour of a route. -/
def ofRoute (route : List Segment) : Detour := route.foldl follow ⟨0, []⟩

/-- Take a detour from a folder. -/
def apply (detour : Detour) (dir : List Segment) : List Segment :=
  dir.take (dir.length - detour.ups) ++ detour.downs

/-- The detour ends strictly inside the folder it starts from: behind its climb
it names the folders it has left again, and at least one more. -/
def Returns (detour : Detour) (dir : List Segment) : Prop :=
  dir.drop (dir.length - detour.ups) <+: detour.downs ∧
    min detour.ups dir.length < detour.downs.length

instance (detour : Detour) (dir : List Segment) : Decidable (detour.Returns dir) :=
  inferInstanceAs (Decidable (_ ∧ _))

theorem apply_follow (detour : Detour) (dir : List Segment) (segment : Segment) :
    (detour.follow segment).apply dir = Path.follow (detour.apply dir) segment := by
  unfold follow Path.follow
  split
  · rfl
  · split
    · by_cases hdowns : detour.downs = []
      · rw [if_pos hdowns]
        simp only [apply, hdowns, List.append_nil]
        rw [List.dropLast_eq_take, List.length_take, List.take_take]
        congr 1
        omega
      · rw [if_neg hdowns]
        simp only [apply]
        rw [List.dropLast_append_of_ne_nil hdowns]
    · simp only [apply, List.append_assoc]

end Detour

/-- A route resolves to the end of its detour. -/
theorem resolveFrom_eq_apply (dir route : List Segment) :
    resolveFrom dir route = (Detour.ofRoute route).apply dir := by
  have hgeneral : ∀ detour : Detour,
      resolveFrom (detour.apply dir) route = (route.foldl Detour.follow detour).apply dir := by
    induction route with
    | nil =>
        intro detour
        rfl
    | cons segment route ih =>
        intro detour
        rw [List.foldl_cons, ← ih (detour.follow segment), Detour.apply_follow]
        rfl
  have hstart : Detour.apply ⟨0, []⟩ dir = dir := by simp [Detour.apply]
  have h := hgeneral ⟨0, []⟩
  rwa [hstart] at h

/-- A route ends strictly inside the folder it starts from exactly if its detour
returns. -/
theorem inside_resolveFrom_iff (dir route : List Segment) :
    Inside dir (resolveFrom dir route) ↔ (Detour.ofRoute route).Returns dir := by
  rw [resolveFrom_eq_apply]
  generalize Detour.ofRoute route = detour
  have hprefix : dir <+: detour.apply dir ↔
      dir.drop (dir.length - detour.ups) <+: detour.downs := by
    have hsplit := List.take_append_drop (dir.length - detour.ups) dir
    nth_rewrite 1 [← hsplit]
    exact List.prefix_append_right_inj _
  have hlength : dir.length < (detour.apply dir).length ↔
      min detour.ups dir.length < detour.downs.length := by
    simp only [Detour.apply, List.length_append, List.length_take]
    omega
  rw [Inside, hprefix, hlength, Detour.Returns]

theorem segments_append (a b : String) : segments (a ++ "/" ++ b) = segments a ++ segments b := by
  unfold segments
  rw [String.toList_append, String.toList_append, List.append_assoc]
  exact List.splitOn_append_cons_self a.toList b.toList

/-- Text before a first slash and text behind it are determined by the whole. -/
theorem eq_of_append_slash_eq {a b x y : String} (ha : '/' ∉ a.toList) (hb : '/' ∉ b.toList)
    (h : a ++ "/" ++ x = b ++ "/" ++ y) : a = b ∧ x = y := by
  have htake : ∀ s t : String, '/' ∉ s.toList →
      (s ++ "/" ++ t).toList.takeWhile (fun c => c ≠ '/') = s.toList := by
    intro s t hs
    have hplain : ∀ c ∈ s.toList, decide (c ≠ '/') = true := by
      intro c hc
      exact decide_eq_true (fun heq => hs (heq ▸ hc))
    simp only [String.toList_append, List.append_assoc]
    rw [List.takeWhile_append_of_pos hplain]
    simp
  have heq : a = b := String.toList_inj.mp (by rw [← htake a x ha, ← htake b y hb, h])
  apply And.intro heq
  have hlist := congrArg String.toList h
  simp only [String.toList_append, heq] at hlist
  exact String.toList_inj.mp (List.append_cancel_left hlist)

/-- The path with the given segments. -/
def ofSegments (route : List Segment) : String := String.ofList (['/'].intercalate route)

@[simp]
theorem ofSegments_segments (path : String) : ofSegments (segments path) = path := by
  rw [ofSegments, segments, List.intercalate_splitOn, String.ofList_toList]

theorem eq_of_segments_eq_pair {path : String} {a b : Segment} (h : segments path = [a, b]) :
    path = String.ofList a ++ "/" ++ String.ofList b := by
  rw [← ofSegments_segments path, h]
  apply String.toList_inj.mp
  simp [ofSegments, List.intercalate]

theorem segments_ofSegments {route : List Segment} (hroute : route ≠ [])
    (hplain : ∀ segment ∈ route, '/' ∉ segment) : segments (ofSegments route) = route := by
  rw [ofSegments, segments, String.toList_ofList]
  exact List.splitOn_intercalate '/' hplain hroute

/-- No segment has a slash. -/
theorem slash_notMem_of_mem_segments {path : String} {segment : Segment}
    (h : segment ∈ segments path) : '/' ∉ segment := by
  unfold segments at h
  generalize path.toList = text at h
  induction text generalizing segment with
  | nil =>
      rw [List.splitOn_nil, List.mem_singleton] at h
      simp [h]
  | cons c text ih =>
      rw [List.splitOn_cons_eq_if_modifyHead] at h
      cases hsplit : text.splitOn '/' with
      | nil => exact absurd hsplit (List.splitOn_ne_nil '/' text)
      | cons first rest =>
          rw [hsplit] at h ih
          by_cases hc : c = '/'
          · rw [if_pos (by simpa using hc)] at h
            rcases List.mem_cons.mp h with rfl | hrest
            · simp
            · exact ih hrest
          · rw [if_neg (by simpa using hc), List.modifyHead_cons] at h
            rcases List.mem_cons.mp h with rfl | hrest
            · have hfirst : '/' ∉ first := ih List.mem_cons_self
              simp [hfirst, Ne.symm hc]
            · exact ih (List.mem_cons_of_mem first hrest)

/-- A path that continues a nonempty one resolves from where that one leads. -/
theorem resolve_append (cwd : List Segment) {a : String} (b : String) (ha : a.toList ≠ []) :
    resolve cwd (a ++ "/" ++ b) = resolveFrom (resolve cwd a) (segments b) := by
  have hhead : (a ++ "/" ++ b).toList.head? = a.toList.head? := by
    rw [String.toList_append, String.toList_append, List.append_assoc,
      List.head?_append_of_ne_nil _ ha]
  unfold resolve
  rw [hhead, segments_append]
  exact List.foldl_append

/-- A name that is one segment and leads one folder down. -/
def Plain (name : String) : Prop :=
  '/' ∉ name.toList ∧ name.toList ≠ [] ∧ name.toList ≠ ['.'] ∧ name.toList ≠ ['.', '.']

instance (name : String) : Decidable (Plain name) :=
  inferInstanceAs (Decidable (_ ∧ _ ∧ _ ∧ _))

/-- A plain name is found directly in the folder. -/
theorem resolve_append_of_plain (cwd : List Segment) {a name : String} (ha : a.toList ≠ [])
    (h : Plain name) : resolve cwd (a ++ "/" ++ name) = resolve cwd a ++ [name.toList] := by
  obtain ⟨hslash, hempty, hdot, hdots⟩ := h
  have hsegments : segments name = [name.toList] := List.splitOn_eq_singleton hslash
  rw [resolve_append cwd name ha, hsegments]
  show follow (resolve cwd a) name.toList = _
  rw [follow, if_neg (not_or.mpr ⟨hempty, hdot⟩), if_neg hdots]

/-- The parent of a folder is not inside it, but a detour may come back. -/
example : resolve [] "/tmp/a/./b//../c" = [['t', 'm', 'p'], ['a'], ['c']] ∧
    ¬ Inside (resolve [] "/tmp/a") (resolve [] "/tmp/a/../x") ∧
    Inside (resolve [] "/tmp/a") (resolve [] "/tmp/a/../a/x") := by
  decide +kernel

end Path

end GitEventsRunner.Lib
