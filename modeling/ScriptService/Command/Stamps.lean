/-!
# Stamps

Each compile of a document takes the document's next stamp, so that a compile can tell when it ends
whether a newer one has started.
-/

namespace ScriptService

/-- The last stamp of each document. -/
abbrev Stamps := List (String × Nat)

/-- The last stamp of a document, zero when it has none. -/
def Stamps.last (s : Stamps) (uri : String) : Nat :=
  (s.lookup uri).getD 0

/-- The stamps once a document's last one is replaced. -/
def Stamps.set (uri : String) (stamp : Nat) : Stamps → Stamps
  | [] => [(uri, stamp)]
  | (u, n) :: s => if u = uri then (uri, stamp) :: s else (u, n) :: Stamps.set uri stamp s

/-- The next stamp of a document, and the stamps after taking it. -/
def Stamps.next (s : Stamps) (uri : String) : Nat × Stamps :=
  (s.last uri + 1, s.set uri (s.last uri + 1))

/-- Whether a stamp is the last that a document took. -/
def Stamps.isLatest (s : Stamps) (uri : String) (stamp : Int) : Bool :=
  (s.lookup uri).any fun n => (n : Int) = stamp

end ScriptService
