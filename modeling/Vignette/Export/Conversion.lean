import Mathlib.Data.List.Perm.Subperm
import Mathlib.Data.Set.List
import Vignette.Export.Fidelity
import Vignette.Library.Decimal

/-! What the program `speedscope` makes of any resolved profile, also of one that lists a
thread twice. -/

namespace Vignette.Speedscope

open Library Output

end Vignette.Speedscope
