import Mathlib.Data.List.Nodup
import StaticSite.Toml.Document

/-!
The keys of a document. Whatever a line does to the tables that were read before it, each key stands once, so
that the first and the last value of a key are the same.
-/

namespace StaticSite.Toml

/-- Whether each key stands once. -/
def Distinct {α : Type} (entries : List (String × α)) : Prop := (entries.map (·.1)).Nodup

section Lookup

variable {α : Type} {entries : List (String × α)} {key : String} {value : α}

theorem Distinct.lookup_eq_some_iff (distinct : Distinct entries) :
    entries.lookup key = some value ↔ (key, value) ∈ entries := by
  induction entries with
  | nil => simp
  | cons entry rest ih =>
      obtain ⟨name, first⟩ := entry
      obtain ⟨new, distinct⟩ := List.nodup_cons.mp distinct
      rw [List.lookup_cons, List.mem_cons, Prod.mk.injEq]
      by_cases same : key = name
      · have elsewhere : (key, value) ∉ rest := fun member => new (List.mem_map.mpr ⟨_, member, same⟩)
        simp [same, same ▸ elsewhere, eq_comm]
      · rw [beq_false_of_ne same]
        simpa [same] using ih distinct

/-- Of keys that stand once it does not matter from which side they are looked for. -/
theorem Distinct.lookup_reverse (distinct : Distinct entries) (key : String) :
    entries.reverse.lookup key = entries.lookup key := by
  have reversed : Distinct entries.reverse := by
    rw [Distinct, List.map_reverse]
    exact List.nodup_reverse.mpr distinct
  ext value
  rw [reversed.lookup_eq_some_iff, distinct.lookup_eq_some_iff, List.mem_reverse]

end Lookup

/-! ## Tables that are read -/

section Tables

variable {nodes : Nodes} {key : String} {node : Node}

theorem Nodes.fst_of_mem_put {entry : String × Node} (member : entry ∈ nodes.put key node) :
    entry.1 = key ∨ entry.1 ∈ nodes.map (·.1) := by
  induction nodes with
  | nil => exact .inl (congrArg Prod.fst (List.mem_singleton.mp member))
  | cons first rest ih =>
      obtain ⟨name, old⟩ := first
      rw [put] at member
      split at member
      · rcases List.mem_cons.mp member with rfl | member
        · exact .inl rfl
        · exact .inr (List.mem_cons_of_mem _ (List.mem_map_of_mem member))
      · rcases List.mem_cons.mp member with rfl | member
        · exact .inr List.mem_cons_self
        · exact (ih member).imp_right (List.mem_cons_of_mem _)

theorem Distinct.put (distinct : Distinct nodes) (key : String) (node : Node) :
    Distinct (nodes.put key node) := by
  induction nodes with
  | nil => exact List.nodup_singleton _
  | cons first rest ih =>
      obtain ⟨name, old⟩ := first
      obtain ⟨new, others⟩ := List.nodup_cons.mp distinct
      rw [Nodes.put]
      split
      · rename_i same
        rw [beq_iff_eq] at same
        exact List.nodup_cons.mpr ⟨same ▸ new, others⟩
      · rename_i different
        refine List.nodup_cons.mpr ⟨fun member => ?_, ih others⟩
        obtain ⟨entry, among, named⟩ := List.mem_map.mp member
        rcases Nodes.fst_of_mem_put among with placed | known
        · exact different (beq_iff_eq.mpr (named.symm.trans placed))
        · exact new (named ▸ known)

theorem keys_toEntries (nodes : Nodes) : (toEntries nodes).map (·.1) = nodes.map (·.1) := by
  induction nodes with
  | nil => rw [toEntries]; rfl
  | cons first rest ih =>
      obtain ⟨key, node⟩ := first
      rw [toEntries, List.map_cons, List.map_cons, ih]

end Tables

/-! ## What lines do -/

namespace Nodes

/-- Whether a change leaves each key of a table standing once. -/
def Change.KeepsDistinct (change : Change) : Prop :=
  ∀ origin nodes after, change origin nodes = some after → Distinct nodes → Distinct after

variable {change : Change}

theorem keepsDistinct_changeAt (keeps : change.KeepsDistinct) (byDots : Bool) (keys : List String) :
    (changeAt byDots change keys).KeepsDistinct := by
  cases keys with
  | nil => exact keeps
  | cons key keys =>
      intro origin nodes after changed distinct
      rw [changeAt] at changed
      dsimp only at changed
      have mapped {inner : Option Nodes} {wrap : Nodes → Node}
          (changed : (inner.map fun inner => nodes.put key (wrap inner)) = some after) : Distinct after := by
        obtain ⟨inner, -, rfl⟩ := Option.map_eq_some_iff.mp changed
        exact distinct.put key _
      split at changed
      · exact mapped changed
      · split at changed
        · cases changed
        · exact mapped changed
      · exact mapped changed
      · cases changed

theorem keepsDistinct_assign (keys : List String) (value : Value) : (assign keys value).KeepsDistinct := by
  refine keepsDistinct_changeAt (fun origin nodes after changed distinct => ?_) true keys.dropLast
  split at changed
  · cases changed
  · cases changed
    exact distinct.put _ _

theorem keepsDistinct_openTable (keys : List String) : (openTable keys).KeepsDistinct := by
  refine keepsDistinct_changeAt (fun origin nodes after changed distinct => ?_) false keys.dropLast
  split at changed <;> cases changed
  · exact distinct.put _ _
  · exact distinct.put _ _

theorem keepsDistinct_openItem (keys : List String) : (openItem keys).KeepsDistinct := by
  refine keepsDistinct_changeAt (fun origin nodes after changed distinct => ?_) false keys.dropLast
  split at changed <;> cases changed
  · exact distinct.put _ _
  · exact distinct.put _ _

theorem keepsDistinct_assignBelow (header keys : List String) (value : Value) :
    (assignBelow header keys value).KeepsDistinct :=
  keepsDistinct_changeAt (keepsDistinct_assign keys value) false header

end Nodes

theorem readLine?_distinct {reading after : Reading} {cs rest : List Char}
    (read : readLine? reading cs = some (after, rest)) (distinct : Distinct reading.nodes) :
    Distinct after.nodes := by
  rw [readLine?] at read
  dsimp only at read
  split at read
  case h_5 | h_6 =>
    obtain ⟨⟨keys, behind⟩, -, read⟩ := Option.bind_eq_some_iff.mp read
    dsimp only at read
    split at read
    · cases read
    · obtain ⟨nodes, changed, same⟩ := Option.bind_eq_some_iff.mp read
      cases same
      first
        | exact Nodes.keepsDistinct_openItem keys _ _ _ changed distinct
        | exact Nodes.keepsDistinct_openTable keys _ _ _ changed distinct
  case h_7 =>
    obtain ⟨⟨keys, behind⟩, -, read⟩ := Option.bind_eq_some_iff.mp read
    obtain ⟨⟨value, behind⟩, -, read⟩ := Option.bind_eq_some_iff.mp read
    obtain ⟨nodes, changed, same⟩ := Option.bind_eq_some_iff.mp read
    cases same
    exact Nodes.keepsDistinct_assignBelow _ _ _ _ _ _ changed distinct
  all_goals
    cases read
    exact distinct

theorem readLines_distinct {fuel : Nat} {reading after : Reading} {cs : List Char}
    (read : readLines fuel reading cs = some after) (distinct : Distinct reading.nodes) :
    Distinct after.nodes := by
  fun_induction readLines fuel reading cs with
  | case1 => cases read
  | case2 => cases read; exact distinct
  | case3 => cases read
  | case4 => cases read
  | case5 fuel reading cs some_char next rest line left finished ih =>
      exact ih read (readLine?_distinct line distinct)

/-- Each key of a document stands once. -/
theorem parse?_distinct {text : String} {entries : Entries} (parsed : parse? text = some entries) :
    Distinct entries := by
  obtain ⟨reading, read, rfl⟩ := Option.map_eq_some_iff.mp parsed
  rw [Distinct, keys_toEntries]
  exact readLines_distinct read List.nodup_nil

end StaticSite.Toml
