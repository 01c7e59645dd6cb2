/-!
The declared parameters of the routines of a run, by the routines' names. Of several declarations
of one name the first counts.
-/
namespace Retrace

/-- The declared parameters by routine, the routines all different. -/
structure Signatures where
  rows : List (String × List String)
  deriving DecidableEq, Repr

namespace Signatures

def empty : Signatures := ⟨[]⟩

/-- The parameters of a routine, none if it is not declared. -/
def params (t : Signatures) (routine : String) : List String := (t.rows.lookup routine).getD []

/-- Declares a routine, unless it is declared already. -/
def declare (t : Signatures) (routine : String) (params : List String) : Signatures :=
  if (t.rows.lookup routine).isSome then t else ⟨t.rows ++ [(routine, params)]⟩

/-- Declares routines one after another. -/
def ofList (rows : List (String × List String)) : Signatures :=
  rows.foldl (fun t row => t.declare row.1 row.2) empty

def size (t : Signatures) : Nat := t.rows.length

theorem lookup_rows_declare (t : Signatures) (routine : String) (ps : List String) (g : String) :
    (t.declare routine ps).rows.lookup g = (t.rows.lookup g).or ([(routine, ps)].lookup g) := by
  unfold declare
  split
  · rename_i h
    by_cases hg : g = routine
    · subst hg
      obtain ⟨qs, hq⟩ := Option.isSome_iff_exists.mp h
      simp [hq]
    · have hne : (g == routine) = false := by simpa using hg
      simp [List.lookup_cons, hne]
  · exact List.lookup_append

theorem lookup_rows_foldl (t : Signatures) (decls : List (String × List String)) (g : String) :
    (decls.foldl (fun t row => t.declare row.1 row.2) t).rows.lookup g =
      (t.rows.lookup g).or (decls.lookup g) := by
  induction decls generalizing t with
  | nil => simp
  | cons row decls ih =>
    have hsplit : (row :: decls).lookup g = ([row].lookup g).or (decls.lookup g) :=
      (List.lookup_append : ([row] ++ decls).lookup g = _)
    rw [List.foldl_cons, ih, lookup_rows_declare, hsplit, Option.or_assoc]

theorem params_ofList (decls : List (String × List String)) (g : String) :
    (ofList decls).params g = (decls.lookup g).getD [] :=
  congrArg (Option.getD · []) (lookup_rows_foldl empty decls g)

end Signatures

end Retrace
