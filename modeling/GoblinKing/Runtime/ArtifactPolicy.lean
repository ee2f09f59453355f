import GoblinKing.Runtime.Lifecycle
import Mathlib.Algebra.Order.BigOperators.Group.List

/-!
# What the artifact policy bounds

The Docker runtime compares the number of the declared artifacts with its limit, and the sum of their
bytes with another one. For the bytes of an artifact it takes the number that the metrics of the result
give for it, where there is one, and the size of the file only where there is none. So a result respects
every policy exactly when its numbers are, in sum, not smaller than the files that they stand for.
-/

namespace GoblinKing

open Posix

section

variable (host : DockerHost) (artifactRoot : Path)

end

variable {host : DockerHost} {artifactRoot : Path} {result : WorkerResult}

/-! ### Sizes -/

end GoblinKing
