import Bms.Model.JobsApi

/-! # Services: their API and the descaler

`scheduler/src/api/services` and `scheduler/src/background/service_descaler.rs`. A pass of the
descaler scales down what was due when it looked and clears each deadline afterwards.
-/

namespace Bms

open Process Fallible

structure CreateServiceInput where
  serviceName : String
  providerType : ProviderType
  topics : List String
  cluster : Option String
  region : Option String
deriving DecidableEq

/-- The details column, by provider. -/
def serviceDetails (payload : CreateServiceInput) : Except ApiError Json :=
  match payload.providerType with
  | .dockerLocal => .ok (.obj [])
  | .awsFargate =>
    match payload.cluster with
    | none => .error (.badRequest "Field 'cluster' is required")
    | some cluster =>
      match payload.region with
      | none => .error (.badRequest "Field 'region' is required")
      | some region => .ok (.obj [("cluster", .str cluster), ("region", .str region)])

def handleCreateService (payload : CreateServiceInput) : Api Service := do
  if payload.topics.isEmpty then throw (.badRequest "Field 'topics' cannot be empty")
  else do
    let details ← outcome (serviceDetails payload)
    let service ← orRespond (.createService payload.serviceName payload.providerType details)
      (.internalServerError "Failed to create service")
    orRespond (.insertTopics payload.topics) (.internalServerError "Failed to create service topics")
    orRespond (.insertServiceTopics service.id payload.topics)
      (.internalServerError "Failed to create service topics")
    pure service

def handleUpdateService (serviceId : Uuid) (isEnabled : Bool) : Api Service :=
  orRespond (.updateServiceSetEnabled serviceId isEnabled) (.internalServerError "Failed to create service")

def getService (serviceId : Uuid) : Api Service :=
  orRespond (.getServiceById serviceId) (.internalServerError "Failed to get service")

def findScaler (registry : ServiceScalerRegistry) (service : Service) : Api ServiceScaler :=
  match registry.getScaler service.providerType with
  | none => throw (.badRequest "ServiceScaler not found")
  | some scaler => pure scaler

/-- The failure of the scale-down is ignored. -/
def handleDeleteService (registry : ServiceScalerRegistry) (serviceId : Uuid) : Api Service := do
  let service ← getService serviceId
  match registry.getScaler service.providerType with
  | none => pure ()
  | some scaler => do
    let _ ← (scaler.scaleDown service i32Max).optional
    pure ()
  let _ ← orRespond (.deleteServiceById serviceId) (.internalServerError "Failed to delete service")
  pure service

def scalerInfo (scaler : ServiceScaler) (service : Service) : Api ServiceScalerInfo :=
  (scaler.getInfo service).mapError fun e => .internalServerError s!"ServiceScaler get info: {e.debug}"

def handleServicesInfo (registry : ServiceScalerRegistry) (serviceId : Uuid) : Api ServiceScalerInfo := do
  let service ← getService serviceId
  let scaler ← findScaler registry service
  scalerInfo scaler service

def handleServicesScaleUp (registry : ServiceScalerRegistry) (serviceId : Uuid) (amount : ℕ) :
    Api ServiceScalerInfo := do
  let service ← getService serviceId
  let scaler ← findScaler registry service
  (scaler.scaleUp service ((tryIntoI32 amount).getD 0)).mapError fun e =>
    .internalServerError s!"ServiceScaler scale up: {e.debug}"
  scalerInfo scaler service

def handleServicesScaleDown (registry : ServiceScalerRegistry) (serviceId : Uuid) (amount : ℕ) :
    Api ServiceScalerInfo := do
  let service ← getService serviceId
  let scaler ← findScaler registry service
  (scaler.scaleDown service ((tryIntoI32 amount).getD 0)).mapError fun e =>
    .internalServerError s!"ServiceScaler scale down: {e.debug}"
  let serviceInfo ← scalerInfo scaler service
  if serviceInfo.desiredCount = some 0 then do
    let _ ← orRespond (.clearDescaleDeadline serviceId)
      (.internalServerError "Failed to clear descale at for the service")
    pure serviceInfo
  else pure serviceInfo

/-- Scale one service down; every failure is ignored. -/
def scaleDownWithInfo (registry : ServiceScalerRegistry) (service : Service) : Api (Option ServiceScalerInfo) :=
  match registry.getScaler service.providerType with
  | none => pure none
  | some scaler => do
    let _ ← (scaler.scaleDown service i32Max).optional
    let serviceInfo ← (scaler.getInfo service).optional
    if serviceInfo.bind (·.desiredCount) = some 0 then do
      let _ ← (orRespond (.clearDescaleDeadline service.id) (.internalServerError "")).optional
      pure serviceInfo
    else pure serviceInfo

def scaleDownServices (registry : ServiceScalerRegistry) :
    List Service → Api (List (Service × Option ServiceScalerInfo))
  | [] => pure []
  | service :: services => do
    let serviceInfo ← scaleDownWithInfo registry service
    let others ← scaleDownServices registry services
    pure ((service, serviceInfo) :: others)

def handleServicesScaleDownAll (registry : ServiceScalerRegistry) :
    Api (List (Service × Option ServiceScalerInfo)) := do
  let services ← orRespond .getServices (.internalServerError "Failed to get services")
  scaleDownServices registry services

/-- A service whose scaler fails is listed without its counts. -/
def withInfo (registry : ServiceScalerRegistry) :
    List ServiceWithTopics → Api (List (ServiceWithTopics × Option ServiceScalerInfo))
  | [] => pure []
  | service :: services => do
    let serviceInfo ← match registry.getScaler service.providerType with
      | none => pure none
      | some scaler => (scaler.getInfo service.toService).optional
    let others ← withInfo registry services
    pure ((service, serviceInfo) :: others)

def handleGetServices (registry : ServiceScalerRegistry) : Api (List (ServiceWithTopics × Option ServiceScalerInfo)) := do
  let services ← orRespond .getServicesWithTopics (.internalServerError "Failed to get services")
  withInfo registry services

/-- A service that cannot be scaled down keeps its deadline. -/
def descaleService (registry : ServiceScalerRegistry) (service : Service) : Prog Calls Unit :=
  match registry.getScaler service.providerType with
  | none => pure ()
  | some scaler => do
    match ← (scaler.scaleDown service i32Max).run with
    | .error _ => pure ()
    | .ok () => do
      let _ ← execute (.clearDescaleDeadline service.id)
      pure ()

def descaleServices (registry : ServiceScalerRegistry) : List Service → Prog Calls Unit
  | [] => pure ()
  | service :: services => do
    descaleService registry service
    descaleServices registry services

/-- One pass of the loop, after its sleep. -/
def serviceDescalerHandler (registry : ServiceScalerRegistry) : Prog Calls Unit := do
  match ← execute .getServicesWithDescaleDeadlineReached with
  | .error _ => pure ()
  | .ok services => descaleServices registry services

end Bms
