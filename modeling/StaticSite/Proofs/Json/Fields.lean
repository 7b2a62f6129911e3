import StaticSite.Json.Value

/-!
Fields stay in the order of their names, each name once, however they are put in.
-/

namespace StaticSite.Json.Fields

/-- Whether fields are in the order of their names, each name once. -/
def Ordered (fields : Fields) : Prop := fields.Pairwise fun left right => left.1 < right.1

instance (fields : Fields) : Decidable (Ordered fields) :=
  inferInstanceAs (Decidable (fields.Pairwise fun left right => left.1 < right.1))

variable {fields extra : Fields} {name : String} {value : Value}

theorem lt_of_not_lt_of_ne {a b : String} (notLess : ¬ a < b) (different : a ≠ b) : b < a := by
  by_cases greater : b < a
  · exact greater
  · exact absurd (String.le_antisymm (String.not_lt.mp greater) (String.not_lt.mp notLess)) different

theorem insert_perm (new : ∀ field ∈ fields, field.1 ≠ name) :
    (fields.insert name value).Perm ((name, value) :: fields) := by
  induction fields with
  | nil => exact .refl _
  | cons field rest ih =>
      obtain ⟨key, old⟩ := field
      have different : name ≠ key := fun same => new (key, old) (by simp) same.symm
      rw [insert]
      split
      · exact .refl _
      · rw [if_neg (by simpa using different)]
        have inside := ih fun field member => new field (by simp [member])
        exact (inside.cons _).trans (.swap _ _ _)

theorem fst_of_mem_insert {field : String × Value} (member : field ∈ fields.insert name value) :
    field.1 = name ∨ field ∈ fields := by
  induction fields with
  | nil => simp_all [insert]
  | cons first rest ih =>
      obtain ⟨key, old⟩ := first
      rw [insert] at member
      split at member
      · simp only [List.mem_cons] at member ⊢
        rcases member with rfl | member
        · exact .inl rfl
        · exact .inr member
      · split at member
        · rcases List.mem_cons.mp member with rfl | member
          · exact .inl rfl
          · exact .inr (by simp [member])
        · rcases List.mem_cons.mp member with rfl | member
          · exact .inr (by simp)
          · rcases ih member with same | member
            · exact .inl same
            · exact .inr (by simp [member])

theorem Ordered.insert (ordered : Ordered fields) (name : String) (value : Value) :
    Ordered (fields.insert name value) := by
  induction fields with
  | nil => exact List.pairwise_singleton _ _
  | cons first rest ih =>
      obtain ⟨key, old⟩ := first
      obtain ⟨least, others⟩ := List.pairwise_cons.mp ordered
      rw [Fields.insert]
      split
      · rename_i less
        refine List.pairwise_cons.mpr ⟨fun field member => ?_, ordered⟩
        rcases List.mem_cons.mp member with rfl | member
        · exact less
        · exact String.lt_trans less (least field member)
      · rename_i notLess
        split
        · rename_i same
          rw [beq_iff_eq] at same
          exact List.pairwise_cons.mpr ⟨same ▸ least, others⟩
        · rename_i different
          refine List.pairwise_cons.mpr ⟨fun field member => ?_, ih others⟩
          rcases fst_of_mem_insert member with same | member
          · rw [same]
            exact lt_of_not_lt_of_ne notLess (by simpa using different)
          · exact least field member

theorem Ordered.overriddenBy (ordered : Ordered fields) (extra : Fields) :
    Ordered (fields.overriddenBy extra) := by
  induction extra generalizing fields with
  | nil => exact ordered
  | cons field rest ih => exact ih (ordered.insert field.1 field.2)

/-- Names that occur once each, and not among the fields yet, all stay. -/
theorem overriddenBy_perm (distinct : extra.Pairwise fun left right => left.1 ≠ right.1)
    (new : ∀ field ∈ fields, ∀ other ∈ extra, field.1 ≠ other.1) :
    (fields.overriddenBy extra).Perm (fields ++ extra) := by
  induction extra generalizing fields with
  | nil => rw [List.append_nil]; exact .refl _
  | cons first rest ih =>
      obtain ⟨apart, others⟩ := List.pairwise_cons.mp distinct
      have inserted : (fields.insert first.1 first.2).Perm (first :: fields) :=
        insert_perm fun field member => new field member first (by simp)
      refine (ih others fun field member other inRest => ?_).trans ?_
      · rcases fst_of_mem_insert member with same | member
        · rw [same]
          exact apart other inRest
        · exact new field member other (by simp [inRest])
      · exact (inserted.append_right rest).trans List.perm_middle.symm

theorem Ordered.ne (ordered : Ordered fields) :
    fields.Pairwise fun left right => left.1 ≠ right.1 := by
  refine ordered.imp fun less same => ?_
  rw [same] at less
  exact String.lt_irrefl _ less

theorem Ordered.eq_of_perm (ordered : Ordered fields) (others : Ordered extra) (perm : fields.Perm extra) :
    fields = extra :=
  perm.eq_of_pairwise (fun _ _ _ _ less greater => absurd greater (String.lt_asymm less)) ordered others

/-- The order in which distinct names are put in does not matter. -/
theorem ofList_of_perm (ordered : Ordered fields) (perm : extra.Perm fields) : ofList extra = fields := by
  have distinct := ordered.ne.perm perm.symm fun different same => different same.symm
  have all : (ofList extra).Perm ([] ++ extra) := overriddenBy_perm distinct (by simp)
  have inOrder : Ordered (ofList extra) := Ordered.overriddenBy .nil extra
  exact inOrder.eq_of_perm ordered (all.trans perm)

theorem Ordered.ofList_eq (ordered : Ordered fields) : ofList fields = fields :=
  ofList_of_perm ordered (.refl _)

/-! ## Looking names up -/

theorem get?_cons (key : String) (value : Value) (rest : Fields) (name : String) :
    Fields.get? ((key, value) :: rest) name = if name = key then some value else rest.get? name := by
  by_cases same : name = key <;> simp [get?, same, Ne.symm]

theorem get?_insert (fields : Fields) (name : String) (value : Value) (other : String) :
    (fields.insert name value).get? other = if other = name then some value else fields.get? other := by
  induction fields with
  | nil => exact get?_cons name value [] other
  | cons first rest ih =>
      obtain ⟨key, old⟩ := first
      rw [insert]
      split
      · exact get?_cons name value _ other
      split
      · rename_i here
        rw [beq_iff_eq] at here
        rw [get?_cons, get?_cons, here]
        by_cases same : other = key <;> simp [same]
      · rename_i apart
        rw [get?_cons, get?_cons, ih]
        by_cases same : other = key
        · have different : other ≠ name := fun found => apart (beq_iff_eq.mpr (found ▸ same))
          simp [same, same ▸ different]
        · simp [same]

theorem contains_insert (fields : Fields) (name : String) (value : Value) (other : String) :
    (fields.insert name value).contains other = (other == name || fields.contains other) := by
  rw [contains, contains, get?_insert]
  by_cases same : other = name <;> simp [same]

theorem Ordered.mem_iff (ordered : Ordered fields) {name : String} {value : Value} :
    (name, value) ∈ fields ↔ fields.get? name = some value := by
  induction fields with
  | nil => simp [get?]
  | cons first rest ih =>
      obtain ⟨key, found⟩ := first
      obtain ⟨least, behind⟩ := List.pairwise_cons.mp ordered
      rw [get?_cons, List.mem_cons, ih behind, Prod.mk.injEq]
      by_cases same : name = key
      · subst same
        have absent : Fields.get? rest name ≠ some value := fun here =>
          String.lt_irrefl name (least (name, value) ((ih behind).mpr here))
        simp [absent, eq_comm]
      · simp [same]

theorem Ordered.nodup (ordered : Ordered fields) : fields.Nodup :=
  ordered.ne.imp fun apart same => apart (congrArg Prod.fst same)

/-- Fields are what they have under each name. -/
theorem Ordered.ext (ordered : Ordered fields) (ordered' : Ordered extra)
    (same : ∀ name, fields.get? name = extra.get? name) : fields = extra := by
  apply ordered.eq_of_perm ordered'
  apply (List.perm_ext_iff_of_nodup ordered.nodup ordered'.nodup).mpr
  rintro ⟨name, value⟩
  rw [ordered.mem_iff, ordered'.mem_iff, same]

/-- Distinct names put in win over those that are there. -/
theorem get?_overriddenBy (distinct : extra.Pairwise fun left right => left.1 ≠ right.1) (name : String) :
    (fields.overriddenBy extra).get? name = (extra.get? name).or (fields.get? name) := by
  induction extra generalizing fields with
  | nil => rfl
  | cons first rest ih =>
      obtain ⟨key, value⟩ := first
      obtain ⟨apart, others⟩ := List.pairwise_cons.mp distinct
      change ((fields.insert key value).overriddenBy rest).get? name = _
      rw [ih others, get?_insert, get?_cons]
      by_cases same : name = key
      · have absent : get? rest name = none := by
          rw [get?, List.find?_eq_none.mpr fun field member => ?_]
          · rfl
          · simpa [same] using (apart field member).symm
        rw [absent, if_pos same, if_pos same]
        rfl
      · rw [if_neg same, if_neg same]

/-- Of the pairs that have a name, the last one counts. -/
theorem get?_ofList (pairs : Fields) (name : String) :
    (ofList pairs).get? name = get? pairs.reverse name := by
  rw [ofList, overriddenBy, ← List.foldr_reverse]
  induction pairs.reverse with
  | nil => rfl
  | cons last front ih =>
      obtain ⟨key, value⟩ := last
      rw [List.foldr_cons, get?_insert, get?_cons, ih]

end StaticSite.Json.Fields
