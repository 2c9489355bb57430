import Criteria.Registry

set_option autoImplicit false

/-
The registry of an admissions office. Some notions appear twice: on their own table,
and reached over relations from another root table.
-/
namespace Criteria.Registry

namespace Builtin

def applicationStatuses : List String :=
  ["DRAFT", "SUBMITTED", "IN_REVIEW", "OFFER_SENT", "ACCEPTED", "REJECTED", "WITHDRAWN"]

def invoiceStatuses : List String :=
  ["DRAFT", "SCHEDULED", "SENT", "PARTIALLY_PAID", "PAID", "OVERDUE", "VOID"]

def paymentFrequencies : List String :=
  ["WEEKLY", "FORTNIGHTLY", "MONTHLY", "TERM", "UPFRONT"]

def programLevels : List String :=
  ["CERTIFICATE_III", "CERTIFICATE_IV", "DIPLOMA", "ADVANCED_DIPLOMA", "GRADUATE_DIPLOMA"]

/-- Exact comparisons of texts. -/
def exactMatches : List Operator := [.eq, .neq, .oneOf, .noneOf, .isNull, .isNotNull]

def applications : List Field :=
  let table := "applications"
  [Field.plain "application_status_direct" "Status" .enum table "status"
      |>.withOptions applicationStatuses |>.notNull,
    Field.plain "application_reference" "Reference" .text table "reference" |>.notNull,
    Field.plain "application_submitted_at" "Submitted" .date table "submitted_at",
    Field.plain "application_requested_start" "Requested start" .date table
      "requested_start_date",
    Field.plain "application_tuition_fee" "Tuition fee" .number table "tuition_fee",
    Field.plain "application_is_offshore" "Offshore" .boolean table "is_offshore" |>.notNull,
    Field.plain "application_agent_name" "Agent" .text table "agents.name" |>.via ["agents"],
    Field.plain "application_agent_email" "Agent email" .text table "agents.email"
      |>.via ["agents"],
    Field.plain "application_program_code" "Program code" .text table "programs.code"
      |>.via ["programs"] |>.withOperators exactMatches,
    Field.plain "application_program_name" "Program" .text table "programs.name"
      |>.via ["programs"],
    Field.plain "application_student_last_name" "Student last name" .text table "students.last_name"
      |>.via ["students"],
    Field.plain "application_student_email" "Student email" .text table "students.email"
      |>.via ["students"]]

def students : List Field :=
  let table := "students"
  [Field.plain "student_first_name" "First name" .text table "first_name" |>.notNull,
    Field.plain "student_last_name" "Last name" .text table "last_name" |>.notNull,
    Field.plain "student_email" "Email" .text table "email",
    Field.plain "student_date_of_birth" "Date of birth" .date table "date_of_birth",
    Field.plain "student_is_international" "International" .boolean table "is_international",
    Field.plain "application_status" "Application status" .enum table "applications.status"
      |>.via ["applications"] |>.withOptions applicationStatuses,
    Field.plain "student_agent_name" "Agent" .text table "applications.agents.name"
      |>.via ["applications", "agents"]]

def invoices : List Field :=
  let table := "invoices"
  [Field.plain "invoice_number" "Invoice number" .text table "invoice_number" |>.notNull,
    Field.plain "invoice_status" "Status" .enum table "status"
      |>.withOptions invoiceStatuses |>.notNull,
    Field.plain "invoice_amount_due" "Amount due" .number table "amount_due",
    Field.plain "invoice_due_date" "Due date" .date table "due_date",
    Field.plain "invoice_student_email" "Student email" .text table "students.email"
      |>.via ["students"],
    Field.plain "invoice_program_code" "Program code" .text table "payment_plans.programs.code"
      |>.via ["payment_plans", "programs"] |>.withOperators exactMatches]

def paymentPlans : List Field :=
  let table := "payment_plans"
  [Field.plain "payment_plan_name" "Plan" .text table "name",
    Field.plain "payment_plan_frequency" "Frequency" .enum table "frequency"
      |>.withOptions paymentFrequencies,
    Field.plain "payment_plan_total" "Total" .number table "total_amount",
    Field.plain "payment_plan_is_active" "Active" .boolean table "is_active" |>.notNull,
    Field.plain "payment_plan_student_last_name" "Student last name" .text table "students.last_name"
      |>.via ["students"]]

def programs : List Field :=
  let table := "programs"
  [Field.plain "program_code" "Code" .text table "code" |>.withOperators exactMatches |>.notNull,
    Field.plain "program_name" "Name" .text table "name" |>.notNull,
    Field.plain "program_level" "Level" .enum table "level" |>.withOptions programLevels,
    Field.plain "program_duration_weeks" "Duration (weeks)" .number table "duration_weeks",
    Field.plain "program_intake_start" "Next intake" .date table "intake_start_date",
    Field.plain "program_is_active" "Active" .boolean table "is_active"]

def fields : List Field := applications ++ students ++ invoices ++ paymentPlans ++ programs

end Builtin

/-- The registry that is used where no other is given. -/
def builtin : Except RegistryError Registry := ofFields Builtin.fields

end Criteria.Registry
