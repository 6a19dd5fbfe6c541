import BotApi.Proofs.Catalog.Page
import BotApi.Proofs.Page.Section
/-!
Reading a page with every look-up failing on its own: a run without a first node, a text where an element is
needed, an anchor without an address, a title or a cell that is not there, a union without options. All of
them are guarded: on every page reading its elements is the same with them as without.
-/

namespace BotApi

inductive Stop where
  | fault (f : CompileFault)
  | key
  | item
  | member
  | form

def reported {α : Type} (x : Except CompileFault α) : Except Stop α := x.mapError .fault

def getOr {α : Type} (s : Stop) (x : Option α) : Except Stop α := x.elim (.error s) .ok

section Reported

variable {α β : Type}

theorem reported_map (x : Except CompileFault α) (f : α → β) : reported (x.map f) = (reported x).map f := by
  cases x <;> rfl

theorem reported_bind (x : Except CompileFault α) (f : α → Except CompileFault β) :
    reported (x.bind f) = (reported x).bind fun a => reported (f a) := by
  cases x <;> rfl

theorem mapM_reported {f : α → Except Stop β} {g : α → Except CompileFault β} {xs : List α}
    (h : ∀ x ∈ xs, f x = reported (g x)) : xs.mapM f = reported (xs.mapM g) := by
  induction xs with
  | nil => rfl
  | cons x xs ih =>
      rw [List.forall_mem_cons] at h
      rw [List.mapM_cons, List.mapM_cons, h.1, ih h.2]
      cases g x with
      | error e => rfl
      | ok y => cases xs.mapM g <;> rfl

theorem mapM_ok {ε : Type} {f : α → Except ε β} {g : α → β} {xs : List α} (h : ∀ x ∈ xs, f x = .ok (g x)) :
    xs.mapM f = .ok (xs.map g) := by
  induction xs with
  | nil => rfl
  | cons x xs ih =>
      rw [List.forall_mem_cons] at h
      rw [List.mapM_cons, h.1, ih h.2]
      rfl

end Reported

namespace Guarded

open Html (Node)
open Page TypeExpr

/-! Anchors -/

def isIdAnchor (n : Node) : Bool :=
  n.isElement ["a"] && ((n.attribute? "href").getD "").toList.head? == some '#'

def anchorId (n : Node) : Except Stop String :=
  (getOr .key (n.attribute? "href")).map fun href => .ofList (href.toList.drop 1)

theorem anchor_cases (n : Node) :
    (n.anchorId? = none ∧ isIdAnchor n = false) ∨
      ∃ id, n.anchorId? = some id ∧ isIdAnchor n = true ∧ anchorId n = .ok id := by
  cases n with
  | text k s => exact .inl ⟨rfl, rfl⟩
  | element name as cs =>
      by_cases hname : name = "a"
      · subst hname
        simp only [Node.anchorId?, isIdAnchor, anchorId]
        cases (Node.element "a" as cs).attribute? "href" with
        | none => exact .inl ⟨rfl, rfl⟩
        | some href =>
            cases hchars : href.toList with
            | nil => simp [hchars, Node.isElement]
            | cons c cs' =>
                by_cases hc : c = '#'
                · subst hc
                  simp [hchars, Node.isElement, getOr, Except.map]
                · simp [hchars, Node.isElement, hc]
      · refine .inl ⟨?_, by simp [isIdAnchor, Node.isElement, hname]⟩
        unfold Node.anchorId?
        split
        · simp_all
        · rfl

theorem find_anchor (ns : List Node) : match ns.findSome? Node.anchorId? with
    | none => ns.find? isIdAnchor = none
    | some id => ∃ a, ns.find? isIdAnchor = some a ∧ anchorId a = .ok id := by
  induction ns with
  | nil => rfl
  | cons n ns ih =>
      rcases anchor_cases n with ⟨hnone, hnot⟩ | ⟨id, hid, his, hget⟩
      · simpa [List.findSome?_cons, List.find?_cons, hnone, hnot] using ih
      · simp [hid, his, hget]

theorem mapM_anchorId (ns : List Node) : (ns.filter isIdAnchor).mapM anchorId = .ok (ns.filterMap Node.anchorId?) := by
  induction ns with
  | nil => rfl
  | cons n ns ih =>
      rcases anchor_cases n with ⟨hnone, hnot⟩ | ⟨id, hid, his, hget⟩
      · simpa [hnone, hnot] using ih
      · rw [List.filter_cons_of_pos his, List.mapM_cons, hget, ih, List.filterMap_cons_some hid]
        rfl

/-! Types -/

mutual
def nodeTokens : Node → Except Stop (List Token)
  | .text .comment _ => .ok []
  | .text _ s => .ok (tokens (.ofList s))
  | .element n as cs =>
      if isIdAnchor (.element n as cs) then (anchorId (.element n as cs)).map fun id => [.anchor id]
      else childTokens cs
def childTokens : List Node → Except Stop (List Token)
  | [] => .ok []
  | n :: ns => (nodeTokens n).bind fun ts => (childTokens ns).map (ts ++ ·)
end

mutual
theorem nodeTokens_eq : ∀ n : Node, nodeTokens n = .ok (Page.nodeTokens n)
  | .text k s => by cases k <;> rfl
  | .element n as cs => by
      rw [nodeTokens, Page.nodeTokens]
      rcases anchor_cases (.element n as cs) with ⟨hnone, hnot⟩ | ⟨id, hid, his, hget⟩
      · rw [hnone, if_neg (by simp [hnot]), childTokens_eq cs]
      · rw [hid, if_pos his, hget]
        rfl
theorem childTokens_eq : ∀ ns : List Node, childTokens ns = .ok (Page.childTokens ns)
  | [] => rfl
  | n :: ns => by
      rw [childTokens, Page.childTokens, nodeTokens_eq n, childTokens_eq ns]
      rfl
end

def unionOf (es : List TypeExpr) : Except Stop TypeExpr := if es.isEmpty then .error .form else .ok (.union (distinct es))

def typeOf (ts : List Token) : Except Stop TypeExpr :=
  let kept := dropFillers ts
  let depth := (kept.takeWhile Token.isArray).length
  let leaves := ((kept.drop depth).filter fun t => !t.isSeparator).map Token.leaf
  if leaves.isEmpty then .error (.fault (.noType (quotedTokens kept)))
  else (if leaves.length = 1 then getOr .item leaves.head? else unionOf leaves).map (nest depth)

theorem typeOf_eq (ts : List Token) : typeOf ts = reported (Page.typeOf ts) := by
  unfold typeOf Page.typeOf ofTokens?
  dsimp only
  generalize ((List.drop _ (dropFillers ts)).filter fun t => !t.isSeparator).map Token.leaf = leaves
  match leaves with
  | [] => rfl
  | [e] => rfl
  | e :: e' :: es => simp [unionOf, ofLeaves?, reported, Except.map, Except.mapError]

def typeCell (cell : Node) : Except Stop TypeExpr := (childTokens cell.children).bind typeOf

theorem typeCell_eq (cell : Node) : typeCell cell = reported (Page.typeCell cell) := by
  rw [typeCell, childTokens_eq]
  exact typeOf_eq _

/-! Tables and lists -/

def header (table : Node) : Except Stop (List (List Char)) :=
  let ts := titles table
  if ts.isEmpty then .error (.fault .noHeader)
  else
    let unknown := ts.filter fun t => (Column.ofTitle? t).isNone
    if unknown.isEmpty then .ok ts else .error (.fault (.unknownColumns (unknown.map String.ofList)))

def row (titles : List (List Char)) (tr : Node) : Except Stop Row :=
  let cells := tr.children.filter (Node.isElement ["td"])
  if cells.length = titles.length then
    (titles.zip cells).mapM fun e => (getOr .key (Column.ofTitle? e.1)).map (·, e.2)
  else .error (.fault (.rowWidth cells.length titles.length (.ofList (Text.join [' '] tr.trimmedContents))))

def Known (titles : List (List Char)) (columns : List Column) : Prop :=
  titles ≠ [] ∧ titles.map Column.ofTitle? = columns.map some

theorem known_of_columns {table : Node} {cs : List Column} (h : Page.columns table = .ok cs) :
    Known (titles table) cs := by
  unfold Page.columns at h
  dsimp only at h
  generalize titles table = ts at h
  split at h
  · cases h
  next hnil =>
    split at h
    next hunknown =>
      cases h
      refine ⟨by simpa using hnil, ?_⟩
      rw [List.isEmpty_iff, List.filter_eq_nil_iff] at hunknown
      clear hnil
      induction ts with
      | nil => rfl
      | cons t ts ih =>
          rw [List.forall_mem_cons] at hunknown
          obtain ⟨c, hc⟩ := Option.isSome_iff_exists.1 (by simpa [Option.isSome_iff_ne_none] using hunknown.1)
          rw [List.map_cons, ih hunknown.2, List.filterMap_cons_some hc, hc, List.map_cons]
    next => cases h

theorem header_eq (table : Node) : header table = reported ((Page.columns table).map fun _ => titles table) := by
  unfold header Page.columns
  dsimp only
  split
  · rfl
  · split <;> rfl

theorem zip_columns {titles : List (List Char)} {columns : List Column}
    (h : titles.map Column.ofTitle? = columns.map some) (cells : List Node) :
    ((titles.zip cells).mapM fun e => (getOr Stop.key (Column.ofTitle? e.1)).map (·, e.2)) =
      .ok (columns.zip cells) := by
  induction titles generalizing columns cells with
  | nil =>
      cases columns with
      | nil => rfl
      | cons c cs => cases h
  | cons t ts ih =>
      cases columns with
      | nil => cases h
      | cons c cs =>
          cases cells with
          | nil => rfl
          | cons n ns =>
              obtain ⟨hc, hcs⟩ := List.cons.inj h
              rw [List.zip_cons_cons, List.mapM_cons, ih hcs]
              dsimp only
              rw [hc]
              rfl

theorem row_eq {titles : List (List Char)} {columns : List Column} (h : Known titles columns) (tr : Node) :
    row titles tr = reported (Page.row columns tr) := by
  have hlength : titles.length = columns.length := by simpa using congrArg List.length h.2
  unfold row Page.row
  dsimp only
  rw [hlength]
  split
  · exact zip_columns h.2 _
  · rfl

def cell (r : Row) (p : Column → Bool) : Except Stop Node := getOr .key (r.cell? p)

theorem cell_eq {r : Row} {p : Column → Bool} {n : Node} (h : r.cell? p = some n) : cell r p = .ok n := by
  rw [cell, h]
  rfl

def paramOf (r : Row) (required : Bool) : Except Stop Param :=
  if (r.cell? Column.holdsName).isNone || (r.cell? (· == .type)).isNone then .error (.fault .noNameOrType)
  else
    let description := r.cell? (· == .description)
    let text := (description.map Node.textContent).getD []
    (cell r (· == .type)).bind fun type => (typeCell type).bind fun e => (cell r Column.holdsName).map fun name => {
      name := .ofList name.trimmedText
      type := e
      required
      description := .ofList ((description.map Node.inner).getD [])
      value := constant? e text
      jsonSerialized := Text.contains "JSON-serialized".toList text }

theorem paramOf_eq (r : Row) (required : Bool) : paramOf r required = reported (Page.paramOf r required) := by
  unfold paramOf Page.paramOf
  cases hname : r.cell? Column.holdsName with
  | none => rfl
  | some name =>
      cases htype : r.cell? (· == .type) with
      | none => rfl
      | some type =>
          simp only [Option.isNone_some, Bool.or_self, Bool.false_eq_true, ↓reduceIte]
          rw [cell_eq htype, cell_eq hname, reported_map, ← typeCell_eq]
          change (typeCell type).bind _ = _
          cases typeCell type <;> rfl

def isRequiredField (r : Row) : Except Stop Bool :=
  if (r.cell? (· == .description)).isSome then
    (cell r (· == .description)).map fun c => !saysOptional c.textContent
  else .ok (!saysOptional [])

def isRequiredParameter (r : Row) : Except Stop Bool :=
  if (r.cell? (· == .required)).isSome then (cell r (· == .required)).map fun c => c.trimmedText == "Yes".toList
  else .ok false

theorem isRequiredField_eq (r : Row) : isRequiredField r = .ok (Page.isRequiredField r) := by
  unfold isRequiredField Page.isRequiredField
  cases h : r.cell? (· == .description) with
  | none => rfl
  | some c =>
      rw [cell_eq h]
      rfl

theorem isRequiredParameter_eq (r : Row) : isRequiredParameter r = .ok (Page.isRequiredParameter r) := by
  unfold isRequiredParameter Page.isRequiredParameter
  cases h : r.cell? (· == .required) with
  | none => rfl
  | some c =>
      rw [cell_eq h]
      rfl

def listed (first : List Char) (rs : List Row) : Except Stop Listing :=
  if first = "Field".toList then (rs.mapM fun r => (isRequiredField r).bind (paramOf r)).map .fields
  else if first = "Parameter".toList then
    (rs.mapM fun r => (isRequiredParameter r).bind (paramOf r)).map .params
  else .error (.fault (.firstColumn (.ofList first)))

def listing (table : Node) : Except Stop Listing :=
  (header table).bind fun ts => ((table.select ["tbody"] "tr").mapM (row ts)).bind fun rs =>
    (getOr .item ts.head?).bind fun first => listed first rs

theorem listed_eq {first : List Char} {c : Column} (h : Column.ofTitle? first = some c) (rs : List Row) :
    listed first rs = reported (match c with
      | .field => (rs.mapM fun r => Page.paramOf r (Page.isRequiredField r)).map .fields
      | .parameter => (rs.mapM fun r => Page.paramOf r (Page.isRequiredParameter r)).map .params
      | _ => .error (.firstColumn (.ofList first))) := by
  have hfields : (rs.mapM fun r => (isRequiredField r).bind (paramOf r)) =
      reported (rs.mapM fun r => Page.paramOf r (Page.isRequiredField r)) :=
    mapM_reported fun r _ => by
      rw [isRequiredField_eq]
      exact paramOf_eq r _
  have hparams : (rs.mapM fun r => (isRequiredParameter r).bind (paramOf r)) =
      reported (rs.mapM fun r => Page.paramOf r (Page.isRequiredParameter r)) :=
    mapM_reported fun r _ => by
      rw [isRequiredParameter_eq]
      exact paramOf_eq r _
  rw [listed, hfields, hparams, ← reported_map, ← reported_map]
  unfold Column.ofTitle? at h
  split_ifs at h with hfield hparameter htype hrequired hdescription <;> cases h
  · rw [if_pos hfield]
  · rw [if_neg hfield, if_pos hparameter]
  all_goals
    rw [if_neg hfield, if_neg hparameter]
    rfl

theorem listing_eq (table : Node) : listing table = reported (Page.listing table) := by
  unfold listing Page.listing
  rw [header_eq]
  cases hcolumns : Page.columns table with
  | error f => rfl
  | ok cs =>
      have hknown := known_of_columns hcolumns
      have hrows : (table.select ["tbody"] "tr").mapM (row (titles table)) = reported (Page.rows cs table) :=
        mapM_reported fun tr _ => row_eq hknown tr
      change ((table.select ["tbody"] "tr").mapM (row (titles table))).bind _ = reported ((Page.rows cs table).bind _)
      rw [hrows, reported_bind]
      cases Page.rows cs table with
      | error f => rfl
      | ok rs =>
          obtain ⟨hne, htitles⟩ := hknown
          obtain ⟨t, ts, hts⟩ := List.exists_cons_of_ne_nil hne
          rw [hts] at htitles ⊢
          cases cs with
          | nil => cases htitles
          | cons c cs =>
              refine (listed_eq (List.cons.inj htitles).1 rs).trans ?_
              cases c <;> rfl

def subtypes (list : Node) : Except Stop (List String) :=
  (((list.select ["li"] "a").filter isIdAnchor).mapM anchorId).bind fun ids => match distinct ids with
    | [] => .error (.fault .noSubtypes)
    | ids => .ok ids

theorem subtypes_eq (list : Node) : subtypes list = reported (Page.subtypes list) := by
  rw [subtypes, mapM_anchorId, Page.subtypes, Except.bind]
  cases distinct ((list.select ["li"] "a").filterMap Node.anchorId?) <;> rfl

/-! Elements -/

def filled (s : Subsection) (id : String) : Except Stop Element :=
  match s.body with
  | none => match (topicOf (headingName s)).kind with
      | .type => .ok { bare s id .type with fields := some [] }
      | .method => .ok { bare s id .method with params := some [] }
  | some (.text _ _) => .error .member
  | some body =>
      if body.isElement ["table"] then (listing body).map fun
        | .fields fs => { bare s id .type with fields := some fs }
        | .params ps => { bare s id .method with params := some ps }
      else (subtypes body).map fun ids => { bare s id .type with subtypes := some ids }

def element (s : Subsection) : Except Stop Element :=
  let name := String.ofList (headingName s)
  match s.heading with
  | .text _ _ => .error .member
  | .element _ _ cs => match cs.find? isIdAnchor with
      | none => .error (.fault (.noAnchor name))
      | some a => (anchorId a).bind fun id => match filled s id with
          | .error (.fault f) => .error (.fault (.element name f))
          | result => result

structure Formed (s : Subsection) : Prop where
  heading : isHeading s.heading = true
  body : ∀ b, s.body = some b → isBody b = true

theorem filled_eq {s : Subsection} (h : Formed s) (id : String) : filled s id = reported (Page.filled s id) := by
  unfold filled Page.filled
  cases hbody : s.body with
  | none => cases (topicOf (headingName s)).kind <;> rfl
  | some body =>
      cases body with
      | text k t => cases h.body _ hbody
      | element n as cs =>
          dsimp only
          rw [listing_eq, subtypes_eq, ← reported_map, ← reported_map]
          split <;> rfl

theorem element_eq {s : Subsection} (h : Formed s) : element s = reported (Page.element s) := by
  unfold element Page.element
  cases hheading : s.heading with
  | text k t =>
      have hword := h.heading
      rw [hheading] at hword
      cases hword
  | element n as cs =>
      simp only [Node.children]
      have hfind := find_anchor cs
      cases hanchor : cs.findSome? Node.anchorId? with
      | none =>
          rw [hanchor] at hfind
          simp only [hfind]
          rfl
      | some id =>
          rw [hanchor] at hfind
          obtain ⟨a, ha, hid⟩ := hfind
          simp only [ha, hid, Except.bind, filled_eq h]
          cases Page.filled s id <;> rfl

def subsectionsOf (nodes : List Node) : Except Stop (List Subsection) :=
  (runs isHeading (nodes.dropWhile fun n => !isHeading n)).mapM fun run => getOr .item (Subsection.ofRun? run)

theorem subsectionsOf_eq (nodes : List Node) : subsectionsOf nodes = .ok (Page.subsectionsOf nodes) ∧
    ∀ s ∈ Page.subsectionsOf nodes, Formed s := by
  unfold subsectionsOf Page.subsectionsOf
  have hstart := runs_heading nodes
  generalize runs isHeading (nodes.dropWhile fun n => !isHeading n) = parts at hstart ⊢
  induction parts with
  | nil => exact ⟨rfl, by simp⟩
  | cons r rs ih =>
      rw [List.forall_mem_cons] at hstart
      obtain ⟨⟨heading, rest, rfl, hheading, -⟩, hrs⟩ := hstart
      obtain ⟨hmap, hformed⟩ := ih hrs
      refine ⟨?_, ?_⟩
      · rw [List.mapM_cons, hmap]
        rfl
      · rw [List.filterMap_cons]
        simp only [Subsection.ofRun?, List.forall_mem_cons]
        exact ⟨⟨hheading, fun b hb => head_dropWhile hb⟩, hformed⟩

def collect (es : List Element) : List Subsection → Except Stop (List Element)
  | [] => .ok es
  | s :: ss => (element s).bind fun e => collect (putElement es e) ss

def elements (page : List Node) : Except Stop (List Element) :=
  (reported (content page)).bind fun nodes => (reported (sections nodes)).bind fun parts =>
    (parts.mapM subsectionsOf).bind fun ss => collect [] (ss.flatten.filter fun s => !isNotes s)

theorem collect_eq {ss : List Subsection} (h : ∀ s ∈ ss, Formed s) (es : List Element) :
    collect es ss = reported (Page.collect es ss).2 := by
  induction ss generalizing es with
  | nil => rfl
  | cons s ss ih =>
      rw [List.forall_mem_cons] at h
      rw [collect, Page.collect, element_eq h.1]
      cases Page.element s with
      | error f => rfl
      | ok e => exact ih h.2 _

theorem elements_eq (page : List Node) : elements page = reported (Page.elements page).2 := by
  unfold elements Page.elements
  cases hcontent : content page with
  | error f => rfl
  | ok nodes =>
      change (reported (sections nodes)).bind _ = _
      cases hsections : sections nodes with
      | error f =>
          simp only [Except.bind, subsections, hsections]
          rfl
      | ok parts =>
          have hparts : parts.mapM subsectionsOf = .ok (parts.map Page.subsectionsOf) :=
            mapM_ok fun part _ => (subsectionsOf_eq part).1
          simp only [Except.bind, subsections, hsections, reported, Except.mapError, Except.map, hparts]
          rw [List.flatMap]
          refine collect_eq (fun s hs => ?_) []
          obtain ⟨part, hpart, hs⟩ := List.mem_flatMap.1 (List.mem_filter.1 hs).1
          exact (subsectionsOf_eq part).2 s hs

end Guarded

end BotApi
