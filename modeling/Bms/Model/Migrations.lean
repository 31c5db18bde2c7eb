import Bms.Model.Statement

/-! # The jobs table before its migration

Rows were created with columns that may be null. `20241009104607_update_jobs_table_add_status_and_not_nulls.sql`
fills them in and adds the status; the migrations after it only rename statuses.
-/

namespace Bms

/-- A row from before the migration. -/
structure OldJobRow where
  id : Uuid
  url : Option String
  routingKey : Option String
  details : Option Json
  createdAt : DateTime
deriving DecidableEq

namespace OldJobRow

/-- What the row becomes. -/
def migrate (row : OldJobRow) : JobRow where
  id := row.id
  url := row.url.getD ""
  routingKey := row.routingKey.getD ""
  status := .completed
  details := row.details.getD (.obj [])
  createdAt := row.createdAt

end OldJobRow

/-- The world with the migrated table of jobs. -/
def World.migrated (w : World) (olds : Table OldJobRow.id) : World :=
  { w with jobs := ⟨olds.rows.map OldJobRow.migrate, by
      rw [List.map_map]
      exact olds.nodup⟩ }

end Bms
