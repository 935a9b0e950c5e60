import PacedLoad.Records.Execute
import PacedLoad.Run.Basic

/-!
# Runs against the database
-/

namespace PacedLoad.Records

open Handler

def work : Work Database := fun db op =>
  match execute db op with
  | (db, .ok value) => some (db, .returned (.ok ⟨0, value⟩))
  | (db, .error e) => some (db, .returned (.error ⟨e.message, e.code⟩))

end PacedLoad.Records
