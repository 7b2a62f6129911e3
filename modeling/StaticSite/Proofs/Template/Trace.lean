import StaticSite.Proofs.Template.Course

/-!
What courses consist of. Every string is written by a template that is being evaluated, and its script
asks for that; every file is asked for from the cache that the events before leave.
-/

namespace StaticSite.Template

/-- The frame of a template that is loaded. -/
def Event.frame? (shared : Shared) : Event → Option Frame
  | .load _ _ properties (.ok (template, _)) =>
    some { template, properties, shared, contextAlive := true }
  | _ => none

/-- Events that take place in frames that are known or loaded on the way, from a cache on. -/
def Traced (fs : FileSystem) (shared : Shared) : List Frame → Cache → List Event → Prop
  | _, _, [] => True
  | known, cache, .write template chunk :: rest =>
    (∃ frame ∈ known, frame.template = template ∧ .write chunk ∈ frame.script.requests) ∧
      Traced fs shared known cache rest
  | known, cache, .load asked path properties outcome :: rest =>
    (asked = cache ∧ outcome = load fs cache path properties) ∧
      Traced fs shared
        (known ++ (Event.frame? shared (.load asked path properties outcome)).toList)
        ((Event.load asked path properties outcome).cacheAfter cache) rest

section Traced

variable {fs : FileSystem} {shared : Shared}

theorem traced_append {known : List Frame} {cache : Cache} (first rest : List Event) :
    Traced fs shared known cache (first ++ rest) ↔
      Traced fs shared known cache first ∧
        Traced fs shared (known ++ first.filterMap (Event.frame? shared)) (cacheAfter first cache) rest := by
  induction first generalizing known cache with
  | nil => simp [Traced, cacheAfter]
  | cons event first ih =>
      cases event with
      | write template chunk =>
          rw [List.cons_append, Traced, Traced, ih, and_assoc]
          rfl
      | load asked path properties outcome =>
          rw [List.cons_append, Traced, Traced, ih, cacheAfter_cons, ← and_assoc]
          generalize Event.load asked path properties outcome = event
          rw [List.filterMap_cons]
          cases event.frame? shared <;> simp

theorem Traced.ofPrefix {known : List Frame} {cache : Cache} {first events : List Event}
    (traced : Traced fs shared known cache events) (leads : first <+: events) :
    Traced fs shared known cache first := by
  obtain ⟨rest, rfl⟩ := leads
  exact ((traced_append first rest).mp traced).1

theorem Traced.exists_frame {known : List Frame} {cache : Cache} {events : List Event}
    (traced : Traced fs shared known cache events) {template : Compiled} {chunk : Chunk}
    (written : .write template chunk ∈ events) :
    ∃ frame ∈ known ++ events.filterMap (Event.frame? shared),
      frame.template = template ∧ .write chunk ∈ frame.script.requests := by
  obtain ⟨before, rest, rfl⟩ := List.append_of_mem written
  rw [traced_append] at traced
  obtain ⟨-, ⟨frame, member, asked⟩, -⟩ := traced
  refine ⟨frame, ?_, asked⟩
  simp only [List.filterMap_append, List.mem_append] at member ⊢
  exact member.imp_right .inl

theorem Traced.load_eq {known : List Frame} {cache : Cache} {before rest : List Event} {asked : Cache}
    {path : Path} {properties : Properties} {outcome : Except Error (Compiled × Cache)}
    (traced : Traced fs shared known cache (before ++ .load asked path properties outcome :: rest)) :
    asked = cacheAfter before cache ∧ outcome = load fs asked path properties := by
  rw [traced_append] at traced
  obtain ⟨-, ⟨rfl, loaded⟩, -⟩ := traced
  exact ⟨rfl, loaded⟩

theorem traced_ofRequests {frame : Frame} {courses : Path → Properties → Cache → Course}
    (included : ∀ path properties cache known,
      Traced fs shared known cache (courses path properties cache).events)
    {known : List Frame} (member : frame ∈ known) (result : Except Error Unit) {requests : List Request}
    (asked : requests ⊆ frame.script.requests) (cache : Cache) :
    Traced fs shared known cache (Course.ofRequests frame courses result requests cache).events := by
  induction requests generalizing known cache with
  | nil => trivial
  | cons request rest ih =>
      obtain ⟨first, others⟩ := List.cons_subset.mp asked
      cases request with
      | write chunk => exact ⟨⟨frame, member, rfl, first⟩, ih member others cache⟩
      | embed position target bindings =>
          rw [Course.ofRequests]
          split
          · trivial
          · dsimp only
            split
            · refine (traced_append _ _).mpr ⟨included _ _ _ _, ih ?_ others _⟩
              exact List.mem_append_left _ member
            · exact included _ _ _ _

theorem traced_ofFile (fs : FileSystem) (shared : Shared) (depth : Nat) (path : Path)
    (properties : Properties) (cache : Cache) (known : List Frame) :
    Traced fs shared known cache (Course.ofFile fs shared depth path properties cache).events := by
  induction depth generalizing path properties cache known with
  | zero => trivial
  | succ depth ih =>
      rw [Course.ofFile]
      cases loaded : load fs cache path properties with
      | error error => exact ⟨⟨rfl, loaded.symm⟩, trivial⟩
      | ok found =>
          refine ⟨⟨rfl, loaded.symm⟩, ?_⟩
          exact traced_ofRequests ih (List.mem_append_right _ (List.mem_singleton_self _)) _
            (List.Subset.refl _) found.2

theorem traced_ofCompiled (fs : FileSystem) (shared : Shared) (depth : Nat) (contextAlive : Bool)
    (template : Compiled) (properties : Properties) (cache : Cache) :
    Traced fs shared [{ template, properties, shared, contextAlive }] cache
      (Course.ofCompiled fs shared depth contextAlive template properties cache).events :=
  traced_ofRequests (traced_ofFile fs shared depth) (List.mem_singleton_self _) _
    (List.Subset.refl _) cache

end Traced

end StaticSite.Template
