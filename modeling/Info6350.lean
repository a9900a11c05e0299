import Info6350.Library.Machine
import Info6350.Library.Table
import Info6350.Swift.UIKit
import Info6350.TableApp.Store
import Info6350.TableApp.ItemScreens
import Info6350.TableApp.LocationScreens
import Info6350.TableApp.OrderScreens
import Info6350.TableApp.App
import Info6350.TableApp.Changes
import Info6350.TableApp.Invariants
import Info6350.TableApp.OrderEditing
import Info6350.TableApp.ReferentialIntegrity
import Info6350.TableApp.Persistence
import Info6350.TableApp.WellFormedOrders
import Info6350.TableApp.OneLinePerItem
import Info6350.TableApp.EditedRow
import Info6350.Assignment10.Download
import Info6350.TableApp.Frames
import Info6350.Assignment10.UserChanges
import Info6350.Assignment10.LateDownload
import Info6350.Assignment10.Relaunch
import Info6350.TextApp.Records
import Info6350.TextApp.ChangeScreens
import Info6350.Assignment8.App
import Info6350.Assignment8.NamedRecord
import Info6350.EmptyApp.App
import Info6350.EmptyApp.FetchedIndex
import Info6350.Assignment8.Persistence
import Info6350.Swift.Console
import Info6350.Assignment4.Tasks
import Info6350.Assignment4.Program
import Info6350.Assignment4.OngoingTasks
import Info6350.Assignment4.Assigning
import Info6350.Assignment4.MemberIsolation
import Info6350.Assignment4.WorkInProgress
import Info6350.Assignment4.Logins
import Info6350.Swift.Firestore
import Info6350.FinalProject.Models
import Info6350.FinalProject.UserPosts
import Info6350.FinalProject.CreatePost
import Info6350.FinalProject.SwipeDelete
import Info6350.TableApp.WriteFailures
import Info6350.TableApp.SwipeDeletes
import Info6350.TableApp.Subscripts
import Info6350.TableApp.IndexSafety
import Info6350.TableApp.Taps
import Info6350.TableApp.TappedBack
import Info6350.TableApp.ReusedCells
import Info6350.TableApp.UneditedUpdates
import Info6350.TableApp.OrderTotals
import Info6350.Assignment8.OrderCosts
import Info6350.Assignment10.OutdatedRows
import Info6350.Assignment10.OutdatedDeletes
import Info6350.Assignment5.Records
import Info6350.Assignment5.Program
import Info6350.Assignment5.Effects
import Info6350.Assignment5.RepeatedIds
import Info6350.Assignment5.MenuEnds
import Info6350.Library.Activation
import Info6350.Assignment5.InputLoops
import Info6350.Assignment5.ControlFlow
import Info6350.Assignment5.OrderCreation
import Info6350.Assignment5.Reports
import Info6350.Assignment5.OrderableItems
import Info6350.Assignment5.SearchResults
import Info6350.Library.Regex
import Info6350.FinalProject.PasswordRule
import Info6350.Assignment8.Deletions
import Info6350.Assignment8.OrderChanges
import Info6350.Assignment8.CostsExact
import Info6350.Assignment8.DepartureDates
import Info6350.EmptyApp.DepartureDates
import Info6350.Assignment8.UneditedUpdates
import Info6350.Library.RegexLanguage
import Info6350.FinalProject.EmailCheck
import Info6350.FinalProject.SignIn
import Info6350.FinalProject.Registering
import Info6350.FinalProject.BlankTitles
import Info6350.Assignment4.TaskIds
import Info6350.Library.Simulation
import Info6350.Library.Provenance
import Info6350.Logistics.Arrays
import Info6350.Library.Operation
import Info6350.Logistics.Registry
import Info6350.TableApp.UnreadDatabase
import Info6350.TableApp.Warehouse
import Info6350.Assignment10.UnreadDatabase
import Info6350.Assignment10.AsAssignment9
import Info6350.Assignment8.UnreadDatabase
import Info6350.Assignment7.App
import Info6350.Assignment7.SameAsAssignment8
import Info6350.Assignment8.Survival
import Info6350.TextApp.Registry
import Info6350.Assignment8.Refinement
import Info6350.EmptyApp.Refinement
import Info6350.Assignment4.Confidentiality
import Info6350.FinalProject.Board
import Info6350.FinalProject.Feed
import Info6350.FinalProject.Clients
import Info6350.FinalProject.Confinement
import Info6350.FinalProject.Unposted
import Info6350.Assignment5.Provenance
import Info6350.Library.Realization
import Info6350.Assignment8.Permissions
import Info6350.Assignment8.Reachable
import Info6350.FinalProject.Segues
import Info6350.TableApp.SearchLists
import Info6350.TextApp.SearchScreens
import Info6350.Assignment8.OrderSearches
import Info6350.Library.Replica
import Info6350.Logistics.Journal
import Info6350.TableApp.RefusedWrites
import Info6350.Assignment8.RefusedWrites
import Info6350.FinalProject.StoredUsers
import Info6350.Assignment4.TaskBoard
