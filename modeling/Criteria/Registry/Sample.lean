import Criteria.Registry

set_option autoImplicit false

/-
A small registry of orders with a field of every type, one that is two relations
away, and one of another root table.
-/
namespace Criteria.Registry

def sampleFields : List Field :=
  let table := "orders"
  [Field.plain "order_ref" "Reference" .text table "reference",
    Field.plain "order_total" "Total" .number table "total",
    Field.plain "order_placed" "Placed" .date table "placed_at",
    Field.plain "order_paid" "Paid" .boolean table "is_paid",
    Field.plain "order_state" "State" .enum table "state"
      |>.withOptions ["OPEN", "SHIPPED", "CLOSED"],
    Field.plain "customer_name" "Customer" .text table "customers.name" |>.via ["customers"],
    Field.plain "customer_region" "Region" .text table "customers.regions.code"
      |>.via ["customers", "regions"],
    Field.plain "customer_email" "Email" .text "customers" "email"]

def orders : Registry := holding sampleFields

def sample : Except RegistryError Registry := ofFields sampleFields

end Criteria.Registry
