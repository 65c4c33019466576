import SimFerret.Workload.Tree

/-!
# SimFerret.Workload.Symlink — symbolic link validation (`workload/tree.rs`)

`validateSymlinkSyntax` is the check made on a target alone, `resolveSymlink` the bounded walk of a target
against the final tree.  The walk is structural: `walkComponents` consumes the pending components, and each
expanded link costs one of the `maxSymlinkHops` rounds of `resolveLoop`.
-/

namespace SimFerret.Workload

def maxSymlinkTargetBytes : Nat := 4096
def maxSymlinkHops : Nat := 40

/-- Reject a symbolic link target that is invalid regardless of the rest of the tree. -/
def validateSymlinkSyntax (target : Bytes) : IoResult Unit :=
  if target = [] ∨ 0 ∈ target then
    .error (invalid "a symbolic link target is empty or contains a NUL byte")
  else if target.length > maxSymlinkTargetBytes then
    .error (invalid "a symbolic link target exceeds the length limit")
  else if target.head? = some slash then
    .error (invalid "absolute symbolic link targets are unsupported")
  else .ok ()

/-- The parts of a path or a target that the walk consumes. -/
def walkParts (path : Bytes) : List Bytes :=
  (path.splitOn slash).filter fun part => !part.isEmpty && part != rootPath

/-- The walk over the pending components; `onLink` continues at a link with its target, what is left and the
components resolved so far. -/
def walkComponents (tree : Tree) (onLink : Bytes → List Bytes → List Bytes → IoResult Unit) :
    List Bytes → List Bytes → IoResult Unit
  | [], _ => .ok ()
  | part :: rest, resolved =>
    if part = utf8 ".." then
      match resolved with
      | [] => .error (invalid "a symbolic link target escapes the workload root")
      | _ => walkComponents tree onLink rest resolved.dropLast
    else
      let parent := [slash].intercalate resolved
      let candidate := (if parent = [] then [] else parent ++ [slash]) ++ part
      match tree.get candidate with
      | some entry =>
        if entry.kind = .symlink then onLink entry.linkTarget rest resolved
        else walkComponents tree onLink rest (resolved ++ [part])
      | none => walkComponents tree onLink rest (resolved ++ [part])

/-- The resolution loop with `hops` expansions left. -/
def resolveLoop (tree : Tree) : Nat → List Bytes → List Bytes → IoResult Unit
  | 0 => walkComponents tree fun _ _ _ => .error (invalid "a symbolic link chain exceeds the hop limit")
  | hops + 1 => walkComponents tree fun nested rest resolved => do
    validateSymlinkSyntax nested
    resolveLoop tree hops (walkParts nested ++ rest) resolved

def resolveSymlink (tree : Tree) (linkPath target : Bytes) : IoResult Unit := do
  validateSymlinkSyntax target
  resolveLoop tree maxSymlinkHops (walkParts ((parentOf linkPath).getD []) ++ walkParts target) []

/-- Resolve every symbolic link against the final view with bounded expansion. -/
def validateSymlinks (tree : Tree) : IoResult Unit :=
  tree.iter.forM fun (path, entry) =>
    if entry.kind = .symlink then resolveSymlink tree path entry.linkTarget else pure ()

/-- What an accepted target looks like. -/
theorem validateSymlinkSyntax_ok {target : Bytes} {u : Unit} (h : validateSymlinkSyntax target = .ok u) :
    target ≠ [] ∧ 0 ∉ target ∧ target.head? ≠ some slash ∧ target.length ≤ maxSymlinkTargetBytes := by
  unfold validateSymlinkSyntax at h
  split_ifs at h with h1 h2 h3
  rw [not_or] at h1
  exact ⟨h1.1, h1.2, h3, by omega⟩

end SimFerret.Workload
