/-!
# Provider operations

The calls that a directory provider takes, by the names that messages and metrics use.
-/

namespace DirectoryGateway.Provider

inductive Operation where
  | listGroups
  | listUsers
  | listMembers
  | getUser
  | addMember
  | removeMember
  deriving Repr, DecidableEq

def Operation.label : Operation → String
  | .listGroups => "list_groups"
  | .listUsers => "list_users"
  | .listMembers => "list_users_in_group"
  | .getUser => "get_user"
  | .addMember => "add_user_to_group"
  | .removeMember => "remove_user_from_group"

end DirectoryGateway.Provider
