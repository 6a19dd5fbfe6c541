import BotApi.Proofs.TypeExpr.Words
import Mathlib.Logic.Relation
/-!
Markup in a type cell. The tokens of a cell are those of its texts and of its anchors within the page, as far as they
stand in no such anchor themselves. Other tags add nothing and hide nothing, and neither do comments.
-/

namespace BotApi.Page

open Html (Node)
open TypeExpr

def isAnchor (n : Node) : Bool := n.anchorId?.isSome

/-! Nodes in document order -/

mutual
def placed (around : List Node) : Node → List (List Node × Node)
  | .text kind s => [(around, .text kind s)]
  | .element name attributes ns =>
      (around, .element name attributes ns) :: placedList (.element name attributes ns :: around) ns
def placedList (around : List Node) : List Node → List (List Node × Node)
  | [] => []
  | n :: ns => placed around n ++ placedList around ns
end

mutual
theorem map_snd_placed (around : List Node) : ∀ n, (placed around n).map Prod.snd = n.nodes
  | .text kind s => rfl
  | .element name attributes ns => by
      rw [placed, Node.nodes, List.map_cons, map_snd_placedList _ ns]
theorem map_snd_placedList (around : List Node) : ∀ ns, (placedList around ns).map Prod.snd = Node.nodesList ns
  | [] => rfl
  | n :: ns => by rw [placedList, Node.nodesList, List.map_append, map_snd_placed around n, map_snd_placedList around ns]
end

mutual
theorem subset_of_mem_placed {around : List Node} : ∀ {n p}, p ∈ placed around n → around ⊆ p.1
  | .text kind s, p, h => by
      obtain rfl := List.mem_singleton.1 h
      exact List.Subset.refl _
  | .element name attributes ns, p, h => by
      rcases List.mem_cons.1 h with rfl | h
      · exact List.Subset.refl _
      · exact List.Subset.trans (List.subset_cons_self _ _) (subset_of_mem_placedList h)
theorem subset_of_mem_placedList {around : List Node} : ∀ {ns p}, p ∈ placedList around ns → around ⊆ p.1
  | n :: ns, p, h => by
      rcases List.mem_append.1 h with h | h
      · exact subset_of_mem_placed h
      · exact subset_of_mem_placedList h
end

/-! Tokens of the exposed nodes -/

def isExposed (p : List Node × Node) : Bool := !p.1.any isAnchor

def exposed (cell : Node) : List Node := ((placedList [] cell.children).filter isExposed).map Prod.snd

def ownTokens (read : String → List Token) : Node → List Token
  | .text .comment _ => []
  | .text _ s => read (.ofList s)
  | .element name attributes ns => ((Node.element name attributes ns).anchorId?.map Token.anchor).toList

theorem filter_placedList_of_anchor {around : List Node} (h : around.any isAnchor = true) (ns : List Node) :
    (placedList around ns).filter isExposed = [] := by
  refine List.filter_eq_nil_iff.2 fun p hp => ?_
  obtain ⟨a, ha, hanchor⟩ := List.any_eq_true.1 h
  have hany : p.1.any isAnchor = true := List.any_eq_true.2 ⟨a, subset_of_mem_placedList hp ha, hanchor⟩
  simp [isExposed, hany]

mutual
theorem tokens_placed {around : List Node} (h : around.any isAnchor = false) : ∀ n,
    ((placed around n).filter isExposed).flatMap (ownTokens tokens ·.2) = nodeTokens n
  | .text kind s => by
      rw [placed, List.filter_cons_of_pos (by simp [isExposed, h])]
      cases kind <;> simp [ownTokens, nodeTokens]
  | .element name attributes ns => by
      rw [placed, List.filter_cons_of_pos (by simp [isExposed, h]), List.flatMap_cons, nodeTokens, ownTokens]
      cases hid : (Node.element name attributes ns).anchorId? with
      | some id =>
          rw [filter_placedList_of_anchor (by simp [isAnchor, hid])]
          rfl
      | none => exact tokens_placedList (by simp [isAnchor, hid, h]) ns
theorem tokens_placedList {around : List Node} (h : around.any isAnchor = false) : ∀ ns,
    ((placedList around ns).filter isExposed).flatMap (ownTokens tokens ·.2) = childTokens ns
  | [] => rfl
  | n :: ns => by
      rw [placedList, List.filter_append, List.flatMap_append, tokens_placed h n, tokens_placedList h ns, childTokens]
end

theorem childTokens_eq_exposed (cell : Node) : childTokens cell.children = (exposed cell).flatMap (ownTokens tokens) := by
  rw [exposed, List.flatMap_map, tokens_placedList rfl]

/-! Commas -/

-- A type is read from what is left when the fillers are dropped, and so is the message where there is none.
theorem typeOf_congr {ts us : List Token} (h : dropFillers ts = dropFillers us) : typeOf ts = typeOf us := by
  unfold typeOf ofTokens?
  rw [h]

def bareTokens (s : String) : List Token := (bareWords s).map .word

theorem dropFillers_bareTokens (s : String) : dropFillers (bareTokens s) = dropFillers (tokens s) := by
  rw [dropFillers_tokens, bareTokens, dropFillers, List.filter_map]
  rfl

theorem dropFillers_ownTokens {read read' : String → List Token} (h : ∀ s, dropFillers (read s) = dropFillers (read' s))
    (ns : List Node) : dropFillers (ns.flatMap (ownTokens read)) = dropFillers (ns.flatMap (ownTokens read')) := by
  unfold dropFillers at h ⊢
  rw [List.filter_flatMap, List.filter_flatMap]
  congr 1
  funext n
  cases n with
  | element name attributes ns => rfl
  | text kind s =>
      by_cases hkind : kind = .comment
      · subst hkind
        rfl
      · simp [ownTokens, h]

/-! Changes of markup -/

inductive Embellished : List Node → List Node → Prop
  | tag (before run after : List Node) (name : String) (attributes : List (String × String))
      (plain : isAnchor (.element name attributes run) = false) :
      Embellished (before ++ run ++ after) (before ++ .element name attributes run :: after)
  | comment (before after : List Node) (s : List Char) :
      Embellished (before ++ after) (before ++ .text .comment s :: after)
  | inside (before after : List Node) (name : String) (attributes : List (String × String)) {ns ns' : List Node}
      (inner : Embellished ns ns') :
      Embellished (before ++ .element name attributes ns :: after) (before ++ .element name attributes ns' :: after)

theorem childTokens_append (ns ms : List Node) : childTokens (ns ++ ms) = childTokens ns ++ childTokens ms := by
  induction ns with
  | nil => rfl
  | cons n ns ih => rw [List.cons_append, childTokens, ih, childTokens, List.append_assoc]

theorem anchorId?_element (name : String) (attributes : List (String × String)) (ns ns' : List Node) :
    (Node.element name attributes ns).anchorId? = (Node.element name attributes ns').anchorId? := by
  by_cases hname : name = "a"
  · subst hname
    rfl
  · simp [Node.anchorId?, hname]

theorem nodeTokens_congr (name : String) (attributes : List (String × String)) {ns ns' : List Node}
    (h : childTokens ns = childTokens ns') :
    nodeTokens (.element name attributes ns) = nodeTokens (.element name attributes ns') := by
  rw [nodeTokens, nodeTokens, anchorId?_element name attributes ns ns', h]

theorem childTokens_embellished {ns ns' : List Node} (h : Embellished ns ns') : childTokens ns = childTokens ns' := by
  induction h with
  | tag before run after name attributes plain =>
      have hnone : (Node.element name attributes run).anchorId? = none := by simpa [isAnchor] using plain
      have hrun : nodeTokens (.element name attributes run) = childTokens run := by rw [nodeTokens, hnone]
      rw [childTokens_append, childTokens_append, childTokens_append, childTokens, hrun, List.append_assoc]
  | comment before after s =>
      rw [childTokens_append, childTokens_append, childTokens, nodeTokens, List.nil_append]
  | inside before after name attributes _ ih =>
      rw [childTokens_append, childTokens_append, childTokens, childTokens, nodeTokens_congr name attributes ih]

theorem childTokens_restyled {ns ns' : List Node} (h : Relation.EqvGen Embellished ns ns') :
    childTokens ns = childTokens ns' := by
  induction h with
  | rel _ _ h => exact childTokens_embellished h
  | refl _ => rfl
  | symm _ _ _ ih => exact ih.symm
  | trans _ _ _ _ _ ih ih' => exact ih.trans ih'

theorem exposed_sublist (cell : Node) : (exposed cell).Sublist (Node.nodesList cell.children) := by
  rw [← map_snd_placedList []]
  exact List.filter_sublist.map Prod.snd

theorem markup_immaterial (cell : Node) :
    (∀ cell' : Node, Relation.EqvGen Embellished cell.children cell'.children → typeCell cell = typeCell cell') ∧
    (exposed cell).Sublist (Node.nodesList cell.children) ∧
    childTokens cell.children = (exposed cell).flatMap (ownTokens tokens) ∧
    typeCell cell = typeOf ((exposed cell).flatMap (ownTokens bareTokens)) := by
  refine ⟨fun cell' h => ?_, exposed_sublist cell, childTokens_eq_exposed cell, ?_⟩
  · rw [typeCell, typeCell, childTokens_restyled h]
  · rw [typeCell, childTokens_eq_exposed]
    exact typeOf_congr (dropFillers_ownTokens (fun s => (dropFillers_bareTokens s).symm) _)

namespace Decoration

def anchor (inside : List Node) : Node :=
  .element "a" [("href", "#messageentity")] (.text .plain "MessageEntity".toList :: inside)

def plain : Node := .element "td" [] [.text .plain "Array of ".toList, anchor [], .text .plain " or String,".toList]

def decorated : Node := .element "td" [] [
  .element "em" [("class", "type")] [.text .plain "Array of ".toList, anchor [.text .comment "or Integer".toList]],
  .text .plain " or String,".toList]

theorem embellished : Relation.EqvGen Embellished plain.children decorated.children := by
  have htag : Embellished plain.children
      [.element "em" [("class", "type")] [.text .plain "Array of ".toList, anchor []], .text .plain " or String,".toList] :=
    .tag [] [.text .plain "Array of ".toList, anchor []] [.text .plain " or String,".toList] "em" _ rfl
  have hcomment : Embellished [.text .plain "MessageEntity".toList]
      [.text .plain "MessageEntity".toList, .text .comment "or Integer".toList] :=
    .comment [.text .plain "MessageEntity".toList] [] _
  have hinside := (hcomment.inside [.text .plain "Array of ".toList] [] "a" [("href", "#messageentity")]).inside
    [] [.text .plain " or String,".toList] "em" [("class", "type")]
  exact .trans _ _ _ (.rel _ _ htag) (.rel _ _ hinside)

end Decoration

theorem decoration_immaterial :
    Relation.EqvGen Embellished Decoration.plain.children Decoration.decorated.children ∧
    typeCell Decoration.plain = typeCell Decoration.decorated ∧
    typeCell Decoration.plain = .ok (.array (.union [.ref "messageentity", .basic "String"])) :=
  ⟨Decoration.embellished, (markup_immaterial Decoration.plain).1 Decoration.decorated Decoration.embellished, rfl⟩

end BotApi.Page
