import ServiceIdl.Document.Basic

/-!
# Questions about a document

Names need not be distinct; every look-up finds the first node of a name. A chain of services
goes from a service to the one that it extends, as long as there is one that was not visited.
-/

namespace ServiceIdl

/-- The field with a given name. -/
def Struct.field? (struct : Struct) (name : String) : Option Field :=
  struct.fields.find? (·.name = name)

/-- The field with a given index. -/
def Struct.fieldByIndex? (struct : Struct) (index : Int32) : Option Field :=
  struct.fields.find? (·.index = index)

/-- The function with a given name. -/
def Service.function? (service : Service) (name : String) : Option Function :=
  service.functions.find? (·.name = name)

/-- The services that do not have a given name. -/
def servicesExcept (name : String) (services : List Service) : List Service :=
  services.filter (·.name ≠ name)

private theorem length_servicesExcept_lt {name : String} {services : List Service}
    {service : Service} (h : services.find? (·.name = name) = some service) :
    (servicesExcept name services).length < services.length := by
  have hname := List.find?_some h
  refine List.length_filter_lt_length_iff_exists.2 ⟨service, List.mem_of_find?_eq_some h, ?_⟩
  simpa using hname

/-- Starting with the service of a given name, each service followed by the one that
it extends. The chain ends at a service without parent, and before a parent that is
missing or has been visited: the services of a visited name are left out. -/
def extendsChain (services : List Service) (name : String) : List Service :=
  match _found : services.find? (·.name = name) with
  | none => []
  | some service =>
    match service.parent with
    | none => [service]
    | some parent => service :: extendsChain (servicesExcept name services) parent
termination_by services.length
decreasing_by exact length_servicesExcept_lt _found

namespace Document

/-- Tells whether a document has no definitions. Its header does not count. -/
def isEmpty (doc : Document) : Bool :=
  doc.consts.isEmpty && doc.typedefs.isEmpty && doc.enums.isEmpty && doc.structs.isEmpty
    && doc.exceptions.isEmpty && doc.services.isEmpty

/-- The constant with a given name. -/
def findConst? (doc : Document) (name : String) : Option Constant :=
  doc.consts.find? (·.name = name)

/-- The typedef with a given name. -/
def findTypedef? (doc : Document) (name : String) : Option Typedef :=
  doc.typedefs.find? (·.name = name)

/-- The enum with a given name. -/
def findEnum? (doc : Document) (name : String) : Option Enum :=
  doc.enums.find? (·.name = name)

/-- The struct with a given name. -/
def findStruct? (doc : Document) (name : String) : Option Struct :=
  doc.structs.find? (·.name = name)

/-- The exception with a given name. -/
def findException? (doc : Document) (name : String) : Option Struct :=
  doc.exceptions.find? (·.name = name)

/-- The service with a given name. -/
def findService? (doc : Document) (name : String) : Option Service :=
  doc.services.find? (·.name = name)

/-- A service of the document and the services of the document that it extends,
directly or through others, in the order of extension. -/
def serviceChain (doc : Document) (name : String) : List Service :=
  extendsChain doc.services name

end Document

end ServiceIdl
