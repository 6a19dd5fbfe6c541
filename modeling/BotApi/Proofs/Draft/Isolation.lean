import BotApi.Proofs.Draft.History
/-!
A well-formed type is drafted whatever was tried before, unless something else is left over that cannot
be completed; and it is then checked against as by a new compiler.
-/

namespace BotApi

open Compiler (Use Mine Lasts)

variable {s : Spec}

namespace Spoiled

def param (name : String) (type : TypeExpr) (required : Bool) : Param :=
  ⟨name, type, required, "", none, false⟩

def spec : Spec where
  methods := []
  types := [
    ⟨"o", "O", "", .fields [param "x" (.ref "x") false, param "d" (.ref "missing") false]⟩,
    ⟨"x", "X", "", .fields [param "g" (.ref "o") false]⟩,
    ⟨"g", "G", "", .fields [param "n" (.basic "Integer") true]⟩]

theorem named : spec.Named where
  names := by decide
  free := by decide +kernel
  fields := by decide +kernel
  params := by decide

theorem entry : spec.typeEntry? "g" =
    some (⟨"g", "G", "", .fields [param "n" (.basic "Integer") true]⟩, 2) := by
  decide +kernel

theorem not_follows (i : String) : ¬ spec.Follows "g" i := by
  intro h
  cases h with
  | subtype he hn hs hmem =>
      cases entry.symm.trans he
      cases hs
  | field he hn hs hp ht hmentions =>
      cases entry.symm.trans he
      cases hs
      cases List.mem_singleton.1 hp
      cases hmentions

theorem wellFormed : spec.WellFormed "g" := by
  have hleads {i : String} (h : spec.Leads "g" i) : i = "g" := by
    rcases Relation.ReflTransGen.cases_head h with h | ⟨j, hj, -⟩
    · exact h.symm
    · exact absurd hj (not_follows j)
  refine ⟨fun {i} h => ?_, fun {i} h hcycle => ?_, ?_⟩
  · rw [hleads h]
    exact ⟨_, 2, entry⟩
  · rw [hleads h] at hcycle
    obtain ⟨j, hj, -⟩ := Relation.TransGen.head'_iff.1 hcycle
    exact not_follows j (Spec.follows_of_below hj)
  · exact Work.exists_of_isOk (by decide +kernel)

end Spoiled

end BotApi
