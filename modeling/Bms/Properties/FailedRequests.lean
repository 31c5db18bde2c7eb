import Bms.Model.Replay
import Bms.Protocol.Creating

/-! # What a failed request leaves behind

The statements of a request are committed one by one. A request that returns an error leaves the
tables as the statements before the failing one have left them: a job with its first sub-jobs, a
service without its topics, or a canceled job.
-/

namespace Bms

open Process Fallible

/-- Two worlds with the same jobs, sub-jobs, services and topics of services. -/
structure World.SameTables (w other : World) : Prop where
  jobs : other.jobs = w.jobs
  subJobs : other.subJobs = w.subJobs
  services : other.services = w.services
  serviceTopics : other.serviceTopics = w.serviceTopics

/-- The row of a new job: what the request says of it, with the URL as it has been parsed and a range of the sample's size. -/
structure JobRow.Requests (row : JobRow) (payload : CreateJobInput) : Prop where
  url : ∃ url : Url, (url.scheme = "http" ∨ url.scheme = "https") ∧ row.url = url.asStr
  routingKey : row.routingKey = payload.routingKey
  status : row.status = .pending
  details : ∃ startRange, payload.Begins startRange ∧ row.details = (payload.detailsAt startRange).toJson

/-- The types and the details of the sub-jobs of a job, in the order in which they are inserted. -/
def CreateJobInput.stages (payload : CreateJobInput) : List (SubJobType × SubJobDetails) :=
  [(.scaling, { topic := some payload.routingKey }), (.combinedDHP, { partialPct := some 1 }),
    (.combinedDHP, { partialPct := some 80 }), (.combinedDHP, {})]

/-- A new job and those of its sub-jobs that have been inserted. -/
structure PartOfJob (payload : CreateJobInput) (w later : World) (jobId : Uuid) (rows : List SubJobRow) : Prop where
  job : ∃ row : JobRow, row.id = jobId ∧ row.Requests payload ∧ w.jobs.find? jobId = none ∧
    later.jobs.rows = w.jobs.rows ++ [row]
  subJobs : later.subJobs.rows = w.subJobs.rows ++ rows
  created : ∀ row ∈ rows, row.jobId = jobId ∧ row.status = .created ∧ row.deadlineAt = none
  stages : rows.map (fun row => (row.type, row.details)) =
    (payload.stages.map fun stage => (stage.1, stage.2.toJson)).take rows.length
  services : later.services = w.services
  serviceTopics : later.serviceTopics = w.serviceTopics

/-- Nothing, or a new service, enabled and without its topics. -/
def ServiceLeftover (payload : CreateServiceInput) (w later : World) : Prop :=
  later.jobs = w.jobs ∧ later.subJobs = w.subJobs ∧ later.serviceTopics = w.serviceTopics ∧
    (later.services = w.services ∨ ∃ id details, serviceDetails payload = .ok details ∧ w.services.find? id = none ∧
      later.services.rows = w.services.rows ++ [⟨id, payload.serviceName, payload.providerType, details, true, none⟩])

section Statements

variable {ε α : Type} {w later : World}

theorem World.SameTables.same (w : World) : w.SameTables w := ⟨rfl, rfl, rfl, rfl⟩

theorem World.SameTables.trans {w middle later : World} (first : w.SameTables middle) (second : middle.SameTables later) :
    w.SameTables later :=
  ⟨second.jobs.trans first.jobs, second.subJobs.trans first.subJobs, second.services.trans first.services,
    second.serviceTopics.trans first.serviceTopics⟩

end Statements

/-! ## The requests -/

section CreateJob

variable {payload : CreateJobInput} {w later : World} {jobId : Uuid} {rows : List SubJobRow}

theorem PartOfJob.kept {after : World} (part : PartOfJob payload w later jobId rows) (same : later.SameTables after) :
    PartOfJob payload w after jobId rows where
  job := by simpa only [same.jobs] using part.job
  subJobs := same.subJobs ▸ part.subJobs
  created := part.created
  stages := part.stages
  services := same.services.trans part.services
  serviceTopics := same.serviceTopics.trans part.serviceTopics

end CreateJob

theorem ServiceLeftover.kept {payload : CreateServiceInput} {w later after : World}
    (leftover : ServiceLeftover payload w later) (same : later.SameTables after) : ServiceLeftover payload w after := by
  obtain ⟨jobs, subJobs, serviceTopics, services⟩ := leftover
  exact ⟨same.jobs.trans jobs, same.subJobs.trans subJobs, same.serviceTopics.trans serviceTopics, by rwa [same.services]⟩

end Bms
