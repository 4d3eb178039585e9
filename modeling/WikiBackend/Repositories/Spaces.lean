import WikiBackend.Services.Effects

/-! Spaces: the repository. -/

namespace WikiBackend.SpaceRepository

/-- `async with connection.transaction(): body` -/
def transaction {α : Type} (body : Act α) : Act α := do
  sql .begin
  let result ← tryCatch body fun e => do
    sql .rollback
    throw e
  sql .commit
  return result

def createSpace (name : String) (ownerId : Int) : Act UUID :=
  transaction do
    let spaceId ← sql (.insertSpace name)
    sql (.insertOwner ownerId spaceId)
    return spaceId

end WikiBackend.SpaceRepository
