import TableQuery.Proofs.CreatedRow
import TableQuery.Proofs.FirstUpdated

namespace TableQuery

namespace Entity

variable {e : Entity} {moment : Moment} {attributes values found : Record}
  {session after : Session} {t : Table} {p : Nat}

end Entity

namespace Shop

/-- Parts that are told by a code, which each is to bring. -/
def parts : Entity where
  table := "parts"
  primaryKey := "code"
  keyKind := .given

def named : Record :=
  .ofList [("name", .text "a")]

end Shop

end TableQuery
