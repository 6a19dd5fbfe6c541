import BotApi.Page.Section
import Mathlib.Data.List.TakeWhile
/-!
Sections and subsections as a division of the page: each node from the first section on is in one of them,
at its place, and headings stand where a section or a subsection begins and nowhere else.
-/

namespace BotApi.Page

open Html (Node)

def Run (p : Node → Bool) (r : List Node) : Prop := ∃ m ms, r = m :: ms ∧ p m = true ∧ ∀ n ∈ ms, p n = false

theorem runs_cons (p : Node → Bool) (n : Node) (ns : List Node) : ∃ rest rs, runs p (n :: ns) = (n :: rest) :: rs ∧
    (∀ m ∈ rest, p m = false) ∧ ∀ r ∈ rs, Run p r := by
  induction ns generalizing n with
  | nil => exact ⟨[], [], rfl, by simp, by simp⟩
  | cons m ns ih =>
      obtain ⟨rest, rs, hruns, hrest, hrs⟩ := ih m
      rw [runs, hruns]
      dsimp only
      cases hm : p m with
      | true =>
          rw [if_pos rfl]
          exact ⟨[], _, rfl, by simp, List.forall_mem_cons.2 ⟨⟨m, rest, rfl, hm, hrest⟩, hrs⟩⟩
      | false =>
          rw [if_neg (by simp)]
          exact ⟨m :: rest, rs, rfl, List.forall_mem_cons.2 ⟨hm, hrest⟩, hrs⟩

theorem runs_start {p : Node → Bool} {ns : List Node} (h : ∀ n, ns.head? = some n → p n = true) :
    ∀ r ∈ runs p ns, Run p r := by
  cases ns with
  | nil => simp [runs]
  | cons n ns =>
      obtain ⟨rest, rs, hruns, hrest, hrs⟩ := runs_cons p n ns
      rw [hruns, List.forall_mem_cons]
      exact ⟨⟨n, rest, rfl, h n rfl, hrest⟩, hrs⟩

theorem flatten_runs (p : Node → Bool) (ns : List Node) : (runs p ns).flatten = ns := by
  induction ns with
  | nil => rfl
  | cons n ns ih =>
      rw [runs]
      cases hruns : runs p ns with
      | nil =>
          rw [hruns] at ih
          rw [← ih]
          rfl
      | cons r rs =>
          rw [hruns] at ih
          rw [← ih]
          cases r with
          | nil => rfl
          | cons m r =>
              dsimp only
              split <;> rfl

theorem head_dropWhile {p : Node → Bool} {ns : List Node} {n : Node}
    (h : (ns.dropWhile fun n => !p n).head? = some n) : p n = true := by
  have hhead := List.head?_dropWhile_not (fun n => !p n) ns
  rw [h] at hhead
  simpa using hhead

theorem eq_false_of_mem_takeWhile {p : Node → Bool} {ns : List Node} {n : Node} (h : n ∈ ns.takeWhile fun n => !p n) :
    p n = false := by
  simpa using List.mem_takeWhile_imp h

namespace Subsection

def following (s : Subsection) : List Node := s.description ++ s.body.toList ++ s.notes

def nodes (s : Subsection) : List Node := s.heading :: s.following

structure Divided (s : Subsection) : Prop where
  heading : isHeading s.heading = true
  headings : ∀ n ∈ s.following, isHeading n = false ∧ isSectionHeading n = false
  description : ∀ n ∈ s.description, isBody n = false
  body : s.body = s.following.find? isBody
  notes : s.body = none → s.notes = []

theorem nodes_ofRun? {run : List Node} {s : Subsection} (h : ofRun? run = some s) : s.nodes = run := by
  cases run with
  | nil => cases h
  | cons heading rest =>
      have hsplit := List.takeWhile_append_dropWhile (p := fun n => !isBody n) (l := rest)
      cases h
      rw [nodes, following]
      cases hafter : rest.dropWhile fun n => !isBody n with
      | nil => simpa [hafter] using hsplit
      | cons b bs => simpa [hafter] using hsplit

theorem divided_ofRun? {run : List Node} {s : Subsection} (h : ofRun? run = some s) (hrun : Run isHeading run)
    (hsection : ∀ n ∈ run, isSectionHeading n = false) : s.Divided := by
  obtain ⟨heading, rest, rfl, hheading, hrest⟩ := hrun
  have hfollowing : s.following = rest := (List.cons.inj (nodes_ofRun? h)).2
  cases h
  refine ⟨hheading, fun n hn => ?_, fun n => eq_false_of_mem_takeWhile, ?_, fun hbody => ?_⟩
  · rw [hfollowing] at hn
    exact ⟨hrest n hn, hsection n (List.mem_cons_of_mem _ hn)⟩
  · rw [hfollowing, List.find?_eq_head?_dropWhile_not]
  · rw [List.head?_eq_none_iff.1 hbody, List.tail_nil]

end Subsection

theorem isHeading_of_isSectionHeading {n : Node} (h : isSectionHeading n = true) : isHeading n = false := by
  cases n with
  | text k t => rfl
  | element name as cs =>
      obtain rfl : name = "h3" := by simpa [isSectionHeading, Node.isElement] using h
      rfl

def lead (part : List Node) : List Node := part.takeWhile fun n => !isHeading n

theorem runs_heading (part : List Node) :
    ∀ r ∈ runs isHeading (part.dropWhile fun n => !isHeading n), Run isHeading r :=
  runs_start fun _ => head_dropWhile

theorem nodes_filterMap {rs : List (List Node)} (h : ∀ r ∈ rs, Run isHeading r) :
    (rs.filterMap Subsection.ofRun?).flatMap Subsection.nodes = rs.flatten := by
  induction rs with
  | nil => rfl
  | cons r rs ih =>
      rw [List.forall_mem_cons] at h
      obtain ⟨⟨heading, rest, rfl, -, -⟩, hrs⟩ := h
      have hs : Subsection.ofRun? (heading :: rest) = some _ := rfl
      rw [List.filterMap_cons_some hs, List.flatMap_cons, Subsection.nodes_ofRun? hs, ih hrs, List.flatten_cons]

theorem nodes_subsectionsOf (part : List Node) :
    lead part ++ (subsectionsOf part).flatMap Subsection.nodes = part := by
  rw [subsectionsOf, nodes_filterMap (runs_heading part), flatten_runs, lead, List.takeWhile_append_dropWhile]

theorem divided_subsectionsOf {part : List Node} (h : Run isSectionHeading part) :
    ∀ s ∈ subsectionsOf part, s.Divided := by
  intro s hs
  obtain ⟨run, hrun, hs⟩ := List.mem_filterMap.1 hs
  refine Subsection.divided_ofRun? hs (runs_heading part run hrun) fun n hn => ?_
  obtain ⟨m, ms, rfl, hm, hms⟩ := h
  have hmem : n ∈ (m :: ms).dropWhile fun n => !isHeading n := by
    rw [← flatten_runs isHeading (List.dropWhile _ _)]
    exact List.mem_flatten.2 ⟨run, hrun, hn⟩
  rw [List.dropWhile_cons_of_pos (by simp [isHeading_of_isSectionHeading hm])] at hmem
  exact hms n ((List.dropWhile_sublist _).subset hmem)

theorem isSectionHeading_of_startsSections {n : Node} (h : startsSections n = true) : isSectionHeading n = true := by
  rw [startsSections, Bool.and_eq_true] at h
  exact h.1

theorem sections_append {before : List Node} (hbefore : ∀ n ∈ before, startsSections n = false) {first : Node}
    (hfirst : startsSections first = true) (after : List Node) :
    sections (before ++ first :: after) = .ok (runs isSectionHeading (first :: after)) := by
  rw [sections, List.dropWhile_append_of_pos (by simpa using hbefore), List.dropWhile_cons_of_neg (by simp [hfirst])]

theorem sections_complete {before : List Node} (hbefore : ∀ n ∈ before, startsSections n = false) {first : Node}
    (hfirst : startsSections first = true) (after : List Node) :
    ∃ parts, sections (before ++ first :: after) = .ok parts ∧
      subsections (before ++ first :: after) = .ok (parts.flatMap subsectionsOf) ∧
      (parts.flatMap fun part => lead part ++ (subsectionsOf part).flatMap Subsection.nodes) = first :: after ∧
      (∀ part ∈ parts, Run isSectionHeading part ∧ ∀ n ∈ lead part, isHeading n = false) ∧
      ∀ s ∈ parts.flatMap subsectionsOf, s.Divided := by
  have hsections := sections_append hbefore hfirst after
  have hparts : ∀ part ∈ runs isSectionHeading (first :: after), Run isSectionHeading part :=
    runs_start (by simpa using isSectionHeading_of_startsSections hfirst)
  refine ⟨_, hsections, ?_, ?_, fun part hpart => ⟨hparts part hpart, fun n => eq_false_of_mem_takeWhile⟩,
    fun s hs => ?_⟩
  · rw [subsections, hsections]
    rfl
  · simp only [nodes_subsectionsOf]
    rw [List.flatMap_id', flatten_runs]
  · obtain ⟨part, hpart, hs⟩ := List.mem_flatMap.1 hs
    exact divided_subsectionsOf (hparts part hpart) s hs

namespace Outline

def titled (name title : String) : Node := .element name [] [.text .plain title.toList]

def before : List Node := [titled "h3" "Recent changes", titled "h4" "May"]

def first : Node := titled "h3" " Getting updates "

def after : List Node :=
  [titled "p" "Updates wait.", titled "h4" "Update", titled "p" "An update.", titled "ul" "One", titled "table" "Two",
    titled "h4" "getUpdates", titled "h4" "Notes", titled "h3" "Types"]

end Outline

theorem outline_sections :
    (∀ n ∈ Outline.before, startsSections n = false) ∧ startsSections Outline.first = true ∧
    ∃ parts, sections (Outline.before ++ Outline.first :: Outline.after) = .ok parts ∧
      subsections (Outline.before ++ Outline.first :: Outline.after) = .ok (parts.flatMap subsectionsOf) ∧
      (parts.flatMap fun part => lead part ++ (subsectionsOf part).flatMap Subsection.nodes) =
        Outline.first :: Outline.after ∧
      (∀ part ∈ parts, Run isSectionHeading part ∧ ∀ n ∈ lead part, isHeading n = false) ∧
      ∀ s ∈ parts.flatMap subsectionsOf, s.Divided :=
  have hbefore : ∀ n ∈ Outline.before, startsSections n = false := by decide +kernel
  have hfirst : startsSections Outline.first = true := by decide +kernel
  ⟨hbefore, hfirst, sections_complete hbefore hfirst Outline.after⟩

end BotApi.Page
