import StaticSite.Path.Basic

/-!
Resolving a path against a base without looking at any file: `.` goes away and `..` takes the name
before it along.
-/

namespace StaticSite.Path

/-- One more component on a resolved path. `..` stays in front of a relative path that has no name to
give up, and has no effect at the root. -/
def resolveStep (resolved : List Component) (component : Component) : List Component :=
  match component with
  | .current => resolved
  | .parent =>
    match resolved.getLast? with
    | some (.name _) => resolved.dropLast
    | some .root => resolved
    | _ => resolved ++ [.parent]
  | .root => [.root]
  | .name name => resolved ++ [.name name]

/-- The components of a resolved path. -/
def resolveComponents (components : List Component) : List Component :=
  components.foldl resolveStep []

/-- `rel` as seen from `base`, in its plainest form. -/
def resolve (base rel : Path) : Path := ofComponents (resolveComponents (base.join rel).components)

end StaticSite.Path
