import IotAgent.Mongo.Table
import IotAgent.Util.Types

/-!
The table of services.

* `ServiceCollection.inPath`: the documents of a service path;
* `ServiceCollection.fillAllResources`: the resources of a service path.
-/

namespace IotAgent

open Mongo

/-- The unique indexes of the table of services. As with the devices the second one that
`createTableAndIndex` asks for is never made. -/
def serviceIndexes : List (List String) :=
  [[StoreTypes.apikey, StoreTypes.resource]]

/-- The table of services. -/
abbrev ServiceTable := Table serviceIndexes

namespace ServiceCollection

/-- The query for a service path. -/
def inPath (service servicePath : String) : Doc :=
  [(StoreTypes.service, .str service), (StoreTypes.servicePath, .str servicePath)]

/-- `fill_all_resources`. -/
def fillAllResources (t : ServiceTable) (service servicePath : String) : List String :=
  ((t.find (inPath service servicePath)).map fun obj =>
    obj.getStringField StoreTypes.resource).filter (· ≠ "")

end ServiceCollection

end IotAgent
