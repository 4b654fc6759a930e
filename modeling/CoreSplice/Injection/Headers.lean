import CoreSplice.Elf.LoadTable
import CoreSplice.Injection.Session

/-!
# Adjusting the headers of the core

When all data is in its place, the program headers of the core are adjusted to the regions that
were filled.

* `Session.adjustHeaders` — the header step on the core of a session.
-/

namespace CoreSplice.Session

/-- The header step for all regions of the ledger, which is emptied.  The result is the size of
the core.  A closed core refuses the step before the disk is asked for anything, so it meets no
fault. -/
def adjustHeaders (s : Session) : Session × Except Abort Int :=
  let (regions, s) := s.takeRegions
  if s.coreIsOpen then
    let content := s.coreContent
    let update := Elf.adjust content regions content.length s.faults.core
    ({ s with disk := s.disk.put s.core update.content }.withCoreFaults update.faults
        |>.report update.notices,
      update.outcome.mapError .obstructed)
  else (s, .error .closedCore)

end CoreSplice.Session
