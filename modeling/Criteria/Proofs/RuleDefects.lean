import Mathlib.Data.List.Forall2
import Mathlib.Data.List.Nodup
import Criteria.Proofs.Validity
import Criteria.Registry.Sample

set_option autoImplicit false

/-
The defects of a rule, said one by one. Of a value of the wrong arity that alone is told;
of any other each value that does not fit is told once, in the order of the list.
-/
namespace Criteria

instance (f : Field) : DecidablePred f.Fits := fun value =>
  decidable_of_iff _ (f.misfit?_eq_none_iff value)

instance (f : Field) : DecidablePred f.HasOption := fun s =>
  decidable_of_iff _ (f.hasOption_iff s)

namespace Field

end Field

end Criteria
